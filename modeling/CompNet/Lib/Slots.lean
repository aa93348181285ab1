import Mathlib.Data.List.Induction
import Mathlib.Data.List.Nodup
import Mathlib.Logic.Function.Basic

/-!
# Stores kept in slots

A store kept as a list of slots: an entry is removed by clearing its slot, and a
new entry is put behind the last slot.  Such a list stands for a partial map
(`Holds`), and setting and removing keep it so.  `foldl_apply_iff` says what the map
is after a sequence of operations, by the operations alone.
-/

namespace CompNet.Lib

variable {κ ν : Type}

/-! ## Keys -/

/-- The keys of the slots that are in use. -/
def slotKeys (slots : List (Option (κ × ν))) : List κ := (slots.filterMap id).map Prod.fst

theorem slotKeys_none (slots : List (Option (κ × ν))) : slotKeys (none :: slots) = slotKeys slots :=
  rfl

theorem slotKeys_some (entry : κ × ν) (slots : List (Option (κ × ν))) :
    slotKeys (some entry :: slots) = entry.1 :: slotKeys slots :=
  rfl

theorem slotKeys_concat (entry : κ × ν) (slots : List (Option (κ × ν))) :
    slotKeys (slots ++ [some entry]) = slotKeys slots ++ [entry.1] := by
  simp [slotKeys, List.filterMap_append]

/-! ## Operations -/

variable [DecidableEq κ]

/-- The operations on a store. -/
inductive StoreOp (κ ν : Type) where
  | set (key : κ) (value : ν)
  | remove (key : κ)
  | get (key : κ)
  deriving DecidableEq, Repr

def StoreOp.key : StoreOp κ ν → κ
  | .set key _ => key
  | .remove key => key
  | .get key => key

/-- What an operation makes of a partial map. -/
def StoreOp.apply (store : κ → Option ν) : StoreOp κ ν → κ → Option ν
  | .set key value => Function.update store key (some value)
  | .remove key => Function.update store key none
  | .get _ => store

/-- The operation decides what is under the key. -/
def StoreOp.changes (key : κ) : StoreOp κ ν → Bool
  | .set k _ => decide (k = key)
  | .remove k => decide (k = key)
  | .get _ => false

/-- The last operation that changes the key sets it to the value. -/
def LastSet (ops : List (StoreOp κ ν)) (key : κ) (value : ν) : Prop :=
  ∃ before behind, ops = before ++ .set key value :: behind ∧
    ∀ op ∈ behind, op.changes key = false

theorem StoreOp.apply_same {op : StoreOp κ ν} {key : κ} (same : op.changes key = false)
    (store : κ → Option ν) : op.apply store key = store key := by
  cases op with
  | set k value =>
      have differ : key ≠ k := Ne.symm (of_decide_eq_false same)
      exact Function.update_of_ne differ _ _
  | remove k =>
      have differ : key ≠ k := Ne.symm (of_decide_eq_false same)
      exact Function.update_of_ne differ _ _
  | get k => rfl

theorem StoreOp.changes_of_ne {op : StoreOp κ ν} {key : κ} (differ : op.key ≠ key) :
    op.changes key = false := by
  cases op with
  | set k value => exact decide_eq_false differ
  | remove k => exact decide_eq_false differ
  | get k => rfl

theorem lastSet_snoc_same {ops : List (StoreOp κ ν)} {op : StoreOp κ ν} {key : κ} {value : ν}
    (same : op.changes key = false) : LastSet (ops ++ [op]) key value ↔ LastSet ops key value := by
  constructor
  · intro given
    obtain ⟨before, behind, split, quiet⟩ := given
    rcases List.eq_nil_or_concat behind with rfl | ⟨behind, last, rfl⟩
    · have ends := (List.append_inj' split rfl).2
      rw [(List.cons.inj ends).1, StoreOp.changes, decide_eq_false_iff_not] at same
      exact absurd rfl same
    · rw [List.concat_eq_append, ← List.cons_append, ← List.append_assoc] at split
      refine ⟨before, behind, (List.append_inj' split rfl).1, fun op member => ?_⟩
      apply quiet
      rw [List.concat_eq_append]
      exact List.mem_append_left _ member
  · intro given
    obtain ⟨before, behind, rfl, quiet⟩ := given
    refine ⟨before, behind ++ [op], by simp, fun later member => ?_⟩
    rcases List.mem_append.mp member with inside | last
    · exact quiet later inside
    · rw [List.mem_singleton.mp last]
      exact same

theorem lastSet_snoc_changed {ops : List (StoreOp κ ν)} {op : StoreOp κ ν} {key : κ} {value : ν}
    (changed : op.changes key = true) :
    LastSet (ops ++ [op]) key value ↔ op = .set key value := by
  constructor
  · intro given
    obtain ⟨before, behind, split, quiet⟩ := given
    rcases List.eq_nil_or_concat behind with rfl | ⟨behind, last, rfl⟩
    · exact (List.cons.inj (List.append_inj' split rfl).2).1
    · rw [List.concat_eq_append] at split quiet
      rw [← List.cons_append, ← List.append_assoc] at split
      have ends := (List.cons.inj (List.append_inj' split rfl).2).1
      have still := quiet last (List.mem_append_right _ List.mem_cons_self)
      rw [← ends, changed] at still
      cases still
  · intro last
    exact ⟨ops, [], by rw [last], fun op member => absurd member List.not_mem_nil⟩

/-- The map after a sequence of operations on an empty store. -/
theorem foldl_apply_iff {ops : List (StoreOp κ ν)} {key : κ} {value : ν} :
    ops.foldl StoreOp.apply (fun _ => none) key = some value ↔ LastSet ops key value := by
  induction ops using List.reverseRecOn with
  | nil =>
      constructor
      · intro found
        cases found
      · intro given
        obtain ⟨before, behind, split, -⟩ := given
        exact absurd split (by simp)
  | append_singleton ops op ih =>
      rw [List.foldl_concat]
      cases changed : op.changes key with
      | false => rw [lastSet_snoc_same changed, ← ih, StoreOp.apply_same changed]
      | true =>
          rw [lastSet_snoc_changed changed]
          cases op with
          | set k v =>
              obtain rfl := of_decide_eq_true changed
              simp [StoreOp.apply]
          | remove k =>
              obtain rfl := of_decide_eq_true changed
              simp [StoreOp.apply]
          | get k => cases changed

/-! ## Slots -/

/-- The entry with a key: the first slot that has it. -/
def findSlot (key : κ) : List (Option (κ × ν)) → Option (κ × ν)
  | [] => none
  | none :: rest => findSlot key rest
  | some entry :: rest => if entry.1 = key then some entry else findSlot key rest

/-- The first slot with a key is cleared. -/
def clearSlot (key : κ) : List (Option (κ × ν)) → List (Option (κ × ν))
  | [] => []
  | none :: rest => none :: clearSlot key rest
  | some entry :: rest => if entry.1 = key then none :: rest else some entry :: clearSlot key rest

variable {slots : List (Option (κ × ν))} {store : κ → Option ν}

theorem length_clearSlot (key : κ) (slots : List (Option (κ × ν))) :
    (clearSlot key slots).length = slots.length := by
  induction slots with
  | nil => rfl
  | cons slot rest ih =>
      cases slot with
      | none => simp [clearSlot, ih]
      | some entry =>
          rw [clearSlot]
          split
          · rfl
          · rw [List.length_cons, List.length_cons, ih]

theorem slotKeys_clearSlot (key : κ) (slots : List (Option (κ × ν))) :
    slotKeys (clearSlot key slots) = (slotKeys slots).erase key := by
  induction slots with
  | nil => rfl
  | cons slot rest ih =>
      cases slot with
      | none => rw [clearSlot, slotKeys_none, slotKeys_none, ih]
      | some entry =>
          rw [clearSlot, slotKeys_some]
          split
          · next same => rw [slotKeys_none, same, List.erase_cons_head]
          · next other =>
              rw [slotKeys_some, ih, List.erase_cons_tail (by simpa using other)]

theorem findSlot_eq_none {key : κ} : findSlot key slots = none ↔ key ∉ slotKeys slots := by
  induction slots with
  | nil => simp [findSlot, slotKeys]
  | cons slot rest ih =>
      cases slot with
      | none => rw [findSlot, slotKeys_none, ih]
      | some entry =>
          rw [findSlot, slotKeys_some, List.mem_cons, not_or, ← ih]
          split
          · next same => simp [same]
          · next other => simp [Ne.symm other]

theorem findSlot_clearSlot_other {key other : κ} (differ : other ≠ key)
    (slots : List (Option (κ × ν))) :
    findSlot other (clearSlot key slots) = findSlot other slots := by
  induction slots with
  | nil => rfl
  | cons slot rest ih =>
      cases slot with
      | none => rw [clearSlot, findSlot, findSlot, ih]
      | some entry =>
          rw [clearSlot]
          split
          · next same =>
              rw [findSlot, findSlot, if_neg]
              rw [same]
              exact Ne.symm differ
          · rw [findSlot, findSlot, ih]

theorem findSlot_concat_other {key : κ} {entry : κ × ν} (differ : key ≠ entry.1)
    (slots : List (Option (κ × ν))) :
    findSlot key (slots ++ [some entry]) = findSlot key slots := by
  induction slots with
  | nil => exact if_neg (Ne.symm differ)
  | cons slot rest ih =>
      cases slot with
      | none => rw [List.cons_append, findSlot, findSlot, ih]
      | some e => rw [List.cons_append, findSlot, findSlot, ih]

theorem findSlot_concat_same {key : κ} (fresh : key ∉ slotKeys slots) (value : ν) :
    findSlot key (slots ++ [some (key, value)]) = some (key, value) := by
  induction slots with
  | nil => exact if_pos rfl
  | cons slot rest ih =>
      cases slot with
      | none =>
          rw [List.cons_append, findSlot]
          exact ih fresh
      | some e =>
          rw [slotKeys_some, List.mem_cons, not_or] at fresh
          rw [List.cons_append, findSlot, if_neg (Ne.symm fresh.1)]
          exact ih fresh.2

/-! ## The map they stand for -/

/-- The slots have distinct keys, and the entries of the map. -/
structure Holds (slots : List (Option (κ × ν))) (store : κ → Option ν) : Prop where
  nodup : (slotKeys slots).Nodup
  found : ∀ key, (findSlot key slots).map Prod.snd = store key

theorem holds_nil : Holds ([] : List (Option (κ × ν))) fun _ => none :=
  ⟨List.nodup_nil, fun _ => rfl⟩

theorem Holds.not_mem_clearSlot (holds : Holds slots store) (key : κ) :
    key ∉ slotKeys (clearSlot key slots) := by
  rw [slotKeys_clearSlot]
  exact holds.nodup.not_mem_erase

theorem Holds.remove (holds : Holds slots store) (key : κ) :
    Holds (clearSlot key slots) (Function.update store key none) := by
  refine ⟨?_, fun other => ?_⟩
  · rw [slotKeys_clearSlot]
    exact holds.nodup.erase key
  · by_cases same : other = key
    · rw [same, Function.update_self, findSlot_eq_none.mpr (holds.not_mem_clearSlot key),
        Option.map_none]
    · rw [Function.update_of_ne same, findSlot_clearSlot_other same, holds.found]

theorem Holds.set (holds : Holds slots store) (key : κ) (value : ν) :
    Holds (clearSlot key slots ++ [some (key, value)])
      (Function.update store key (some value)) := by
  have fresh := holds.not_mem_clearSlot key
  refine ⟨?_, fun other => ?_⟩
  · rw [slotKeys_concat, ← List.concat_eq_append]
    exact ((holds.remove key).nodup).concat fresh
  · by_cases same : other = key
    · rw [same, Function.update_self, findSlot_concat_same fresh value]
      rfl
    · rw [Function.update_of_ne same, findSlot_concat_other same, findSlot_clearSlot_other same,
        holds.found]

end CompNet.Lib
