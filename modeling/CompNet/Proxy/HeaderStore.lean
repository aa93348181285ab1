import CompNet.Lib.Slots
import CompNet.Proxy.Forwarding

/-!
# The header store

The headers of a request over any sequence of calls of `ParsedHeader_set`,
`ParsedHeader_remove` and `ParsedHeader_get`.  The slots stand for the map from keys
to values that these calls describe, and there always is a free slot.  What is
printed of them is counted by two functions, one of which adds up in an `int`: from
2 GiB of header lines on, `ParsedRequest_totalLen` is not the length of the text.
-/

namespace CompNet.Proxy

open CompNet.Lib

/-! ## Calls -/

/-- A call of one of the three functions. -/
abbrev HeaderOp := StoreOp Bytes Bytes

/-- What a call does to the request. -/
def call (pr : ParsedRequest) : HeaderOp → ParsedRequest
  | .set key value => parsedHeaderSet pr key value
  | .remove key => { pr with headers := parsedHeaderRemove key pr.headers }
  | .get _ => pr

/-- A request whose headers are as `ParsedHeader_create` leaves them. -/
structure Created (pr : ParsedRequest) : Prop where
  headers : pr.headers = []
  headerslen : pr.headerslen = 8

theorem parsedHeaderGet_eq (key : Bytes) (slots : List (Option Header)) :
    parsedHeaderGet key slots = findSlot key slots := by
  induction slots with
  | nil => rfl
  | cons slot rest ih =>
      cases slot with
      | none => rw [parsedHeaderGet, findSlot, ih]
      | some header => rw [parsedHeaderGet, findSlot, ih]

theorem parsedHeaderRemove_eq (key : Bytes) (slots : List (Option Header)) :
    parsedHeaderRemove key slots = clearSlot key slots := by
  induction slots with
  | nil => rfl
  | cons slot rest ih =>
      cases slot with
      | none => rw [parsedHeaderRemove, clearSlot, ih]
      | some header => rw [parsedHeaderRemove, clearSlot, ih]

theorem call_fields (pr : ParsedRequest) (op : HeaderOp) : (call pr op).fields = pr.fields := by
  cases op with
  | set key value => rfl
  | remove key => rfl
  | get key => rfl

theorem foldl_call_fields (pr : ParsedRequest) (ops : List HeaderOp) :
    (ops.foldl call pr).fields = pr.fields := by
  induction ops generalizing pr with
  | nil => rfl
  | cons op rest ih => rw [List.foldl_cons, ih, call_fields]

/-- The parser makes its request by such calls. -/
theorem parsedRequestParse_calls {errno : Errno} {buf : Bytes} {pr : ParsedRequest}
    (parse : parsedRequestParse errno parsedRequestCreate buf = some (0, pr)) :
    ∃ (start : ParsedRequest) (ops : List HeaderOp), Created start ∧ pr = ops.foldl call start := by
  obtain ⟨line, lines, body, -, p, sets, -, -, -, whole⟩ :=
    parsedRequestParse_accepted_form (by decide) parse
  refine ⟨parsedRequestCreate.withLine p.requestLine, sets.map fun h => .set h.1 h.2,
    ⟨rfl, rfl⟩, ?_⟩
  rw [whole, List.foldl_map]
  rfl

/-- The slots stand for the map, and one of them is free. -/
structure Stores (pr : ParsedRequest) (store : Bytes → Option Bytes) : Prop where
  holds : Holds pr.headers store
  room : pr.headers.length < pr.headerslen

theorem Created.stores {pr : ParsedRequest} (created : Created pr) : Stores pr fun _ => none := by
  refine ⟨?_, ?_⟩
  · rw [created.headers]
    exact holds_nil
  · rw [created.headers, created.headerslen]
    decide

theorem Stores.step {pr : ParsedRequest} {store : Bytes → Option Bytes} (stores : Stores pr store)
    (op : HeaderOp) : Stores (call pr op) (op.apply store) := by
  have room := stores.room
  cases op with
  | set key value =>
      refine ⟨?_, ?_⟩
      · show Holds (parsedHeaderRemove key pr.headers ++ [some (key, value)]) _
        rw [parsedHeaderRemove_eq]
        exact stores.holds.set key value
      · -- the table doubles one slot before it is full
        simp only [call, parsedHeaderSet, parsedHeaderRemove_eq, List.length_append,
          List.length_singleton, length_clearSlot]
        split
        · omega
        · omega
  | remove key =>
      refine ⟨?_, ?_⟩
      · show Holds (parsedHeaderRemove key pr.headers) _
        rw [parsedHeaderRemove_eq]
        exact stores.holds.remove key
      · simpa only [call, parsedHeaderRemove_eq, length_clearSlot] using room
  | get key => exact stores

theorem Stores.run {pr : ParsedRequest} {store : Bytes → Option Bytes} (stores : Stores pr store)
    (ops : List HeaderOp) : Stores (ops.foldl call pr) (ops.foldl StoreOp.apply store) := by
  induction ops generalizing pr store with
  | nil => exact stores
  | cons op rest ih => exact ih (stores.step op)

/-- What is to hold of the headers of a request that has seen these calls. -/
structure KeepsHeaders (ops : List HeaderOp) (pr : ParsedRequest) : Prop where
  distinct : (pr.liveHeaders.map Prod.fst).Nodup
  room : pr.headers.length < pr.headerslen
  latest : ∀ key value,
    (parsedHeaderGet key pr.headers).map Prod.snd = some value ↔ LastSet ops key value
  apart : ∀ (op : HeaderOp) (key : Bytes), op.key ≠ key →
    (parsedHeaderGet key (call pr op).headers).map Prod.snd =
      (parsedHeaderGet key pr.headers).map Prod.snd

theorem Created.keepsHeaders {pr : ParsedRequest} (created : Created pr) (ops : List HeaderOp) :
    KeepsHeaders ops (ops.foldl call pr) := by
  have stores := created.stores.run ops
  refine ⟨stores.holds.nodup, stores.room, fun key value => ?_, fun op key differ => ?_⟩
  · rw [parsedHeaderGet_eq, stores.holds.found]
    exact foldl_apply_iff
  · rw [parsedHeaderGet_eq, parsedHeaderGet_eq, (stores.step op).holds.found, stores.holds.found]
    exact StoreOp.apply_same (StoreOp.changes_of_ne differ) _

/-! ## Printing -/

/-- `ParsedRequest_totalLen` is the length of what `ParsedRequest_unparse` writes, which
fails in a smaller buffer and in no other. -/
structure PrintsExactly (pr : ParsedRequest) : Prop where
  length : ∀ buflen text, buflen < 2 ^ 64 → parsedRequestUnparse pr buflen = (0, text) →
    text.length = parsedRequestTotalLen pr
  enough : ∀ buflen, buflen < 2 ^ 64 →
    ((parsedRequestUnparse pr buflen).1 < 0 ↔ buflen < parsedRequestTotalLen pr)

/-- The text of a request, with all of its headers, would fit into memory. -/
def InMemory (pr : ParsedRequest) : Prop :=
  ∀ f, pr.fields = some f → requestLineLen f + (printHeaders pr.headers).length < 2 ^ 63

theorem parsedRequestUnparse_done {pr : ParsedRequest} {buflen : Nat}
    (done : ¬ (parsedRequestUnparse pr buflen).1 < 0) :
    ∃ text, parsedRequestUnparse pr buflen = (0, text) := by
  have negative : (-1 : Int) < 0 := by decide
  cases fields : pr.fields with
  | none =>
      simp only [parsedRequestUnparse, fields] at done
      exact absurd negative done
  | some f =>
      simp only [parsedRequestUnparse, fields] at done ⊢
      split at done
      · exact absurd negative done
      · next first =>
          rw [if_neg first]
          split at done
          · exact absurd negative done
          · next second => exact ⟨_, if_neg second⟩

section

variable {pr : ParsedRequest} {f : Fields} (fields : pr.fields = some f)
  (fits : requestLineLen f + (printHeaders pr.headers).length < 2 ^ 63)
include fields fits

theorem totalLen_small (small : (printHeaders pr.headers).length < 2 ^ 31) :
    parsedRequestTotalLen pr = requestLineLen f + (printHeaders pr.headers).length := by
  simp only [parsedRequestTotalLen, fields, headersLen_small small]
  omega

/-- The `int` is negative, or too small by a multiple of 2^32. -/
theorem totalLen_large (large : 2 ^ 31 ≤ (printHeaders pr.headers).length) :
    parsedRequestTotalLen pr ≠ requestLineLen f + (printHeaders pr.headers).length := by
  have low : -2 ^ 31 ≤ asInt (printHeaders pr.headers).length := Int.le_bmod (by decide)
  have high : asInt (printHeaders pr.headers).length < 2 ^ 31 := Int.bmod_lt (by decide)
  simp only [parsedRequestTotalLen, fields, headersLen_eq]
  omega

theorem printsExactly_of_small (small : (printHeaders pr.headers).length < 2 ^ 31) :
    PrintsExactly pr := by
  have total := totalLen_small fields fits small
  refine ⟨fun buflen text _ printed => ?_, fun buflen _ => ?_⟩
  · rw [parsedRequestUnparse_text fields printed, List.length_append, length_printRequestLine,
      total]
  · have negative : (-1 : Int) < 0 := by decide
    simp only [parsedRequestUnparse, fields, headersLen_small small, total]
    split
    · exact iff_of_true negative (by omega)
    · split
      · exact iff_of_true negative (by omega)
      · exact iff_of_false (Int.lt_irrefl 0) (by omega)

theorem printsExactly_iff : PrintsExactly pr ↔ (printHeaders pr.headers).length < 2 ^ 31 := by
  refine ⟨fun exactly => ?_, printsExactly_of_small fields fits⟩
  by_contra large
  have size : parsedRequestTotalLen pr < 2 ^ 64 := by
    simp only [parsedRequestTotalLen, fields]
    omega
  -- a buffer of `totalLen` bytes is said to do, but the text does not have that length
  have done := (exactly.enough _ size).not.mpr (Nat.lt_irrefl _)
  obtain ⟨text, printed⟩ := parsedRequestUnparse_done done
  apply totalLen_large fields fits (by omega)
  rw [← exactly.length _ text size printed, parsedRequestUnparse_text fields printed,
    List.length_append, length_printRequestLine]

end

/-! ## The store -/

/-- Whatever calls are made on a created request, its headers are those that were set
last and not removed, and they are printed as they are counted if and only if the
request cannot be printed at all or the header lines are shorter than 2 GiB. -/
theorem headerStore_iff {pr : ParsedRequest} (created : Created pr) (ops : List HeaderOp)
    (memory : InMemory (ops.foldl call pr)) :
    (KeepsHeaders ops (ops.foldl call pr) ∧
        (pr.fields.isSome = true → PrintsExactly (ops.foldl call pr))) ↔
      (pr.fields.isSome = true → (printHeaders (ops.foldl call pr).headers).length < 2 ^ 31) := by
  have keeps := created.keepsHeaders ops
  have printing : pr.fields.isSome = true →
      (PrintsExactly (ops.foldl call pr) ↔
        (printHeaders (ops.foldl call pr).headers).length < 2 ^ 31) := by
    intro set
    obtain ⟨f, fields⟩ := Option.isSome_iff_exists.mp set
    have same : (ops.foldl call pr).fields = some f := by rw [foldl_call_fields, fields]
    exact printsExactly_iff same (memory f same)
  constructor
  · intro given set
    exact (printing set).mp (given.2 set)
  · intro small
    exact ⟨keeps, fun set => (printing set).mpr (small set)⟩

/-- A request for the root of `h`, parsed as far as its headers. -/
def rootStart : ParsedRequest := parsedRequestCreate.withLine (rootFields.pieces [] []).requestLine

theorem rootStart_created : Created rootStart := ⟨rfl, rfl⟩

theorem rootStart_fields : rootStart.fields = some rootFields := by
  rw [rootStart, ParsedRequest.fields_withLine, Pieces.requestLine_fields (by decide)]
  rfl

/-- `A` is set, set again and removed, and `B` is set. -/
def someCalls : List HeaderOp := [.set [65] [49], .set [66] [50], .set [65] [51], .remove [65]]

theorem headerStore_iff_someCalls :
    (KeepsHeaders someCalls (someCalls.foldl call rootStart) ∧
        (rootStart.fields.isSome = true → PrintsExactly (someCalls.foldl call rootStart))) ↔
      (rootStart.fields.isSome = true →
        (printHeaders (someCalls.foldl call rootStart).headers).length < 2 ^ 31) :=
  headerStore_iff rootStart_created someCalls fun f fields => by
    rw [foldl_call_fields, rootStart_fields, Option.some.injEq] at fields
    subst fields
    decide

theorem length_oneHeader {pr : ParsedRequest} (created : Created pr) (key value : Bytes) :
    (printHeaders (call pr (.set key value)).headers).length = key.length + value.length + 6 := by
  have one : (call pr (.set key value)).headers = [some (key, value)] := by
    rw [call, parsedHeaderSet, created.headers]
    rfl
  rw [one, length_printHeaders, List.map_singleton, List.sum_singleton, lineLen]

section

variable {value : Bytes} (long : value.length = 2 ^ 31)
include long

theorem length_longHeader :
    (printHeaders (call rootStart (.set [97] value)).headers).length = 2147483655 := by
  rw [length_oneHeader rootStart_created, long]
  rfl

theorem headersLen_longHeader :
    headersLen (call rootStart (.set [97] value)).headers = 18446744071562067975 := by
  rw [headersLen_eq, length_longHeader long]
  decide

theorem totalLen_longHeader :
    parsedRequestTotalLen (call rootStart (.set [97] value)) = 18446744071562068004 := by
  have line : requestLineLen rootFields = 29 := by decide
  have headers := headersLen_longHeader long
  rw [parsedRequestTotalLen, call_fields, rootStart_fields]
  dsimp only
  omega

theorem unparse_longHeader :
    parsedRequestUnparse (call rootStart (.set [97] value)) 2147483684 =
      (-1, printRequestLine rootFields) := by
  have line : requestLineLen rootFields = 29 := by decide
  rw [parsedRequestUnparse, call_fields, rootStart_fields]
  simp only [headersLen_longHeader long, line]
  rfl

end

/-- With one header whose value has 2^31 bytes, `totalLen` is not the length of the text, and a
buffer of that length is not enough. -/
theorem longHeader_not_printed :
    ∃ pr, pr = call rootStart (.set [97] (List.replicate (2 ^ 31) 98)) ∧
      pr.fields = some rootFields ∧ InMemory pr ∧
      (printRequestLine rootFields ++ printHeaders pr.headers).length = 2147483684 ∧
      parsedRequestTotalLen pr = 18446744071562068004 ∧
      parsedRequestUnparse pr 2147483684 = (-1, printRequestLine rootFields) ∧
      ¬ PrintsExactly pr := by
  have long : (List.replicate (2 ^ 31) (98 : UInt8)).length = 2 ^ 31 := List.length_replicate
  generalize List.replicate (2 ^ 31) (98 : UInt8) = value at long ⊢
  have line : requestLineLen rootFields = 29 := by decide
  have size := length_longHeader long
  have fields : (call rootStart (.set [97] value)).fields = some rootFields := by
    rw [call_fields, rootStart_fields]
  have memory : requestLineLen rootFields +
      (printHeaders (call rootStart (.set [97] value)).headers).length < 2 ^ 63 := by
    omega
  refine ⟨_, rfl, fields, ?_, ?_, totalLen_longHeader long, unparse_longHeader long, ?_⟩
  · intro f same
    rw [fields, Option.some.injEq] at same
    rwa [← same]
  · rw [List.length_append, length_printRequestLine, line, size]
  · rw [printsExactly_iff fields memory, size]
    decide

end CompNet.Proxy
