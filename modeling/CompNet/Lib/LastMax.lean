import Mathlib.Algebra.Order.Ring.Int
import Mathlib.Data.List.Induction
import Mathlib.Order.Nat

/-!
# The last of the greatest

A scan of a list that keeps the best candidate so far, and takes a later one if it
is at least as good, ends with the last of the greatest candidates.  If no two
candidates have the same key this is the only one, whatever the order.
-/

namespace CompNet.Lib

variable {α κ : Type} [LinearOrder κ]

/-- The last of the candidates whose key is the greatest. -/
structure IsLastMax (p : α → Prop) (key : α → κ) (xs : List α) (a : α) : Prop where
  candidate : p a
  split : ∃ before behind, xs = before ++ a :: behind ∧
    (∀ b ∈ before, p b → key b ≤ key a) ∧ ∀ b ∈ behind, p b → key b < key a

variable {p : α → Prop} {key : α → κ} {xs ys : List α} {a b c : α}

theorem IsLastMax.mem (last : IsLastMax p key xs a) : a ∈ xs := by
  obtain ⟨-, before, behind, rfl, -, -⟩ := last
  exact List.mem_append_right _ List.mem_cons_self

theorem IsLastMax.le (last : IsLastMax p key xs a) (member : b ∈ xs) (candidate : p b) :
    key b ≤ key a := by
  obtain ⟨-, before, behind, rfl, least, less⟩ := last
  rcases List.mem_append.mp member with front | back
  · exact least b front candidate
  · rcases List.mem_cons.mp back with rfl | back
    · exact le_refl _
    · exact le_of_lt (less b back candidate)

/-- The scan stays with its candidate. -/
theorem IsLastMax.stay (last : IsLastMax p key xs a) (worse : p c → key c < key a) :
    IsLastMax p key (xs ++ [c]) a := by
  obtain ⟨candidate, before, behind, rfl, least, less⟩ := last
  refine ⟨candidate, before, behind ++ [c], ?_, least, ?_⟩
  · rw [List.append_assoc, List.cons_append]
  · intro b member
    rcases List.mem_append.mp member with back | new
    · exact less b back
    · rw [List.mem_singleton.mp new]
      exact worse

/-- The scan takes a new candidate. -/
theorem isLastMax_snoc (candidate : p c) (better : ∀ b ∈ xs, p b → key b ≤ key c) :
    IsLastMax p key (xs ++ [c]) c :=
  ⟨candidate, xs, [], rfl, better, fun _ member => absurd member List.not_mem_nil⟩

/-- Without equal keys the greatest candidate is the only one, in any order. -/
theorem IsLastMax.eq_of_perm (left : IsLastMax p key xs a) (right : IsLastMax p key ys b)
    (perm : xs.Perm ys)
    (distinct : ∀ c ∈ xs, ∀ d ∈ xs, p c → p d → key c = key d → c = d) : a = b := by
  have here : b ∈ xs := perm.mem_iff.mpr right.mem
  have there : a ∈ ys := perm.mem_iff.mp left.mem
  have same : key a = key b :=
    le_antisymm (right.le there left.candidate) (left.le here right.candidate)
  exact distinct a left.mem b here left.candidate right.candidate same

end CompNet.Lib
