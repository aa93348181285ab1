import Mathlib.Data.List.Induction

/-!
# Entries in the order of their last write

A table kept as a list of entries with distinct keys: a write takes the entry
with its key out and puts the new one at the end.  After a sequence of writes
the table holds the last write of each key, in the order of these writes
(`foldl_overwrite`).
-/

namespace CompNet.Lib

variable {α β : Type} [DecidableEq α] {xs ys : List (α × β)}

/-- One write: the first entry with the key goes, and the new one comes last. -/
def overwrite (entries : List (α × β)) (e : α × β) : List (α × β) :=
  entries.eraseP (fun old => decide (old.1 = e.1)) ++ [e]

/-- The last entry of each key. -/
def latest : List (α × β) → List (α × β)
  | [] => []
  | e :: rest => if e.1 ∈ rest.map Prod.fst then latest rest else e :: latest rest

theorem mem_keys_latest (k : α) : k ∈ (latest xs).map Prod.fst ↔ k ∈ xs.map Prod.fst := by
  induction xs with
  | nil => rfl
  | cons e rest ih =>
      by_cases again : e.1 ∈ rest.map Prod.fst
      · rw [latest, if_pos again, ih, List.map_cons, List.mem_cons]
        refine ⟨.inr, ?_⟩
        intro given
        rcases given with rfl | member
        · exact again
        · exact member
      · rw [latest, if_neg again, List.map_cons, List.map_cons, List.mem_cons, List.mem_cons, ih]

theorem mem_of_mem_latest {e : α × β} (member : e ∈ latest xs) : e ∈ xs := by
  induction xs with
  | nil => exact member
  | cons a rest ih =>
      rw [latest] at member
      split at member
      · exact List.mem_cons_of_mem a (ih member)
      · rcases List.mem_cons.mp member with rfl | member
        · exact List.mem_cons_self
        · exact List.mem_cons_of_mem a (ih member)

/-- Entries whose keys are all written again leave no trace. -/
theorem latest_append_of_covered (covered : ∀ e ∈ xs, e.1 ∈ ys.map Prod.fst) :
    latest (xs ++ ys) = latest ys := by
  induction xs with
  | nil => rfl
  | cons e rest ih =>
      have again : e.1 ∈ (rest ++ ys).map Prod.fst := by
        rw [List.map_append]
        exact List.mem_append_right _ (covered e List.mem_cons_self)
      rw [List.cons_append, latest, if_pos again]
      exact ih fun e member => covered e (List.mem_cons_of_mem _ member)

theorem latest_of_nodup (nodup : (xs.map Prod.fst).Nodup) : latest xs = xs := by
  induction xs with
  | nil => rfl
  | cons e rest ih =>
      rw [List.map_cons, List.nodup_cons] at nodup
      rw [latest, if_neg nodup.1, ih nodup.2]

theorem latest_snoc (e : α × β) : latest (xs ++ [e]) = overwrite (latest xs) e := by
  induction xs with
  | nil => rfl
  | cons a rest ih =>
      rw [List.cons_append, latest, ih]
      by_cases again : a.1 ∈ rest.map Prod.fst
      · rw [if_pos (by simp only [List.map_append, List.mem_append, again, true_or]), latest,
          if_pos again]
      · by_cases same : a.1 = e.1
        · have gone : ∀ b ∈ latest rest, ¬ decide (b.1 = e.1) = true := by
            intro b member key
            apply again
            rw [same, ← of_decide_eq_true key, ← mem_keys_latest]
            exact List.mem_map_of_mem member
          rw [if_pos (by simp [same]), latest, if_neg again, overwrite, overwrite,
            List.eraseP_of_forall_not gone, List.eraseP_cons_of_pos (by simpa using same)]
        · have fresh : ¬ a.1 ∈ (rest ++ [e]).map Prod.fst := by
            rw [List.map_append, List.mem_append]
            intro given
            rcases given with member | member
            · exact again member
            · exact same (by simpa using member)
          rw [if_neg fresh, latest, if_neg again, overwrite, overwrite,
            List.eraseP_cons_of_neg (by simpa using same), List.cons_append]

/-- A sequence of writes to an empty table. -/
theorem foldl_overwrite (xs : List (α × β)) : xs.foldl overwrite [] = latest xs := by
  induction xs using List.reverseRecOn with
  | nil => rfl
  | append_singleton xs e ih => rw [List.foldl_append, ih, latest_snoc]; rfl

end CompNet.Lib
