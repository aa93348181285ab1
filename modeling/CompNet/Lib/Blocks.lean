import Mathlib.Data.List.Basic

/-!
# Functions of a message, block by block

`blocks n` cuts a list into blocks of `n` items.  A program that folds a function over
the blocks of a message it is given piece by piece keeps the items of the last block
until there are `n` of them: `Buffered` is what its state and its buffer are then,
whatever the pieces were.
-/

namespace CompNet.Lib

variable {α σ : Type} {f : σ → List α → σ} {n : Nat} {start s : σ} {xs buf more : List α}

/-- The blocks of a list, without what is left at its end. -/
def blocks (n : Nat) (xs : List α) : List (List α) :=
  if n = 0 ∨ xs.length < n then [] else xs.take n :: blocks n (xs.drop n)
termination_by xs.length
decreasing_by
  simp only [List.length_drop]
  omega

/-- Joined blocks are cut where they were joined. -/
theorem blocks_flatten (some : 0 < n) {whole : List (List α)}
    (length : ∀ block ∈ whole, block.length = n) : blocks n whole.flatten = whole := by
  induction whole with
  | nil =>
      rw [blocks, if_pos]
      exact .inr some
  | cons block whole ih =>
      obtain ⟨here, later⟩ := List.forall_mem_cons.mp length
      rw [List.flatten_cons, blocks, if_neg, List.take_left' here, List.drop_left' here, ih later]
      rw [List.length_append]
      omega

/-- The state after `xs`: the blocks that were full are folded into it, the rest is kept. -/
structure Buffered (f : σ → List α → σ) (n : Nat) (start : σ) (xs : List α) (s : σ)
    (buf : List α) : Prop where
  room : buf.length < n
  folded : ∃ whole : List (List α), (∀ block ∈ whole, block.length = n) ∧
    xs = whole.flatten ++ buf ∧ s = whole.foldl f start

theorem Buffered.nil (some : 0 < n) : Buffered f n start [] start [] :=
  ⟨some, [], by simp, rfl, rfl⟩

/-- Items that do not fill the block are kept. -/
theorem Buffered.keep (buffered : Buffered f n start xs s buf)
    (room : (buf ++ more).length < n) : Buffered f n start (xs ++ more) s (buf ++ more) := by
  obtain ⟨-, whole, length, rfl, rfl⟩ := buffered
  exact ⟨room, whole, length, by rw [List.append_assoc], rfl⟩

/-- A full block is folded, and the buffer is empty again. -/
theorem Buffered.fill (buffered : Buffered f n start xs s buf)
    (full : (buf ++ more).length = n) :
    Buffered f n start (xs ++ more) (f s (buf ++ more)) [] := by
  obtain ⟨room, whole, length, rfl, rfl⟩ := buffered
  refine ⟨Nat.zero_lt_of_lt room, whole ++ [buf ++ more], ?_, by simp, by simp⟩
  intro block member
  rcases List.mem_append.mp member with old | last
  · exact length block old
  · rw [List.mem_singleton.mp last]
    exact full

/-- What is kept is what the blocks leave of the list. -/
theorem Buffered.length_buf (buffered : Buffered f n start xs s buf) :
    buf.length = xs.length % n := by
  obtain ⟨room, whole, length, rfl, rfl⟩ := buffered
  have sum : whole.flatten.length = whole.length * n := by
    rw [List.length_flatten, List.map_congr_left length, List.map_const', List.sum_replicate_nat]
  rw [List.length_append, sum, Nat.mul_add_mod_of_lt room]

/-- With nothing kept the state is the fold over the blocks of the whole message. -/
theorem Buffered.eq_foldl (buffered : Buffered f n start xs s []) :
    s = (blocks n xs).foldl f start := by
  obtain ⟨room, whole, length, rfl, rfl⟩ := buffered
  rw [List.append_nil, blocks_flatten room length]

end CompNet.Lib
