import Mathlib.Data.List.Basic
import Mathlib.Logic.Relation

/-!
# Programs at the two ends of a stream

A program that writes to a stream or reads from one, as the tree of its calls: each call is given
what it asks for, and the rest of the program waits for the answer.  A call may move fewer items
than it was asked to, but at least one.  `Writes` and `Reads` say what a program puts into the
stream or takes out of it however its calls are cut short, and `Link` puts a writer and a reader at
the ends of one stream.  `Flow` is the invariant: what the writer has still to write follows what
is in the stream, and together these are what the reader takes.
-/

namespace CompNet.Lib

variable {α : Type} {β γ : Type}

/-- A program over a stream of `α`.  A call is answered by a return value, and a call that reads
by the items as well. -/
inductive StreamProg (α : Type) (β : Type) : Type
  | ret (result : β)
  | write (buf : List α) (next : Int → StreamProg α β)
  | read (count : Nat) (next : Int → List α → StreamProg α β)

/-- One program and then another. -/
def StreamProg.bind (p : StreamProg α β) (f : β → StreamProg α γ) : StreamProg α γ :=
  match p with
  | .ret result => f result
  | .write buf next => .write buf fun rc => (next rc).bind f
  | .read count next => .read count fun rc got => (next rc got).bind f

instance : Monad (StreamProg α) where
  pure := .ret
  bind := .bind

/-! ## One program -/

/-- Whatever its calls move, `p` writes `items` and returns `result`. -/
inductive StreamProg.Writes : StreamProg α β → List α → β → Prop
  | ret (result : β) : Writes (.ret result) [] result
  | write {buf items : List α} {next : Int → StreamProg α β} {result : β} (some : buf ≠ [])
      (front : buf <+: items)
      (rest : ∀ k : Nat, 0 < k → k ≤ buf.length → Writes (next k) (items.drop k) result) :
      Writes (.write buf next) items result

/-- Whatever its calls move, `p` reads `items` and no more, and returns `result`. -/
inductive StreamProg.Reads : StreamProg α β → List α → β → Prop
  | ret (result : β) : Reads (.ret result) [] result
  | read {count : Nat} {items : List α} {next : Int → List α → StreamProg α β} {result : β}
      (some : 0 < count) (enough : count ≤ items.length)
      (rest : ∀ k : Nat, 0 < k → k ≤ count → Reads (next k (items.take k)) (items.drop k) result) :
      Reads (.read count next) items result

theorem StreamProg.Writes.bind {p : StreamProg α β} {f : β → StreamProg α γ} {items more : List α}
    {result : β} {last : γ} (first : p.Writes items result) (second : (f result).Writes more last) :
    (p >>= f).Writes (items ++ more) last := by
  induction first with
  | ret result => exact second
  | write some front _ ih =>
      refine .write some (front.trans (List.prefix_append _ _)) fun k moves fits => ?_
      rw [List.drop_append_of_le_length (Nat.le_trans fits front.length_le)]
      exact ih k moves fits second

theorem StreamProg.Reads.bind {p : StreamProg α β} {f : β → StreamProg α γ} {items more : List α}
    {result : β} {last : γ} (first : p.Reads items result) (second : (f result).Reads more last) :
    (p >>= f).Reads (items ++ more) last := by
  induction first with
  | ret result => exact second
  | read some enough _ ih =>
      refine .read some (by rw [List.length_append]; omega) fun k moves fits => ?_
      have inside := Nat.le_trans fits enough
      rw [List.drop_append_of_le_length inside, List.take_append_of_le_length inside]
      exact ih k moves fits second

theorem StreamProg.Writes.bind_last {p : StreamProg α β} {f : β → StreamProg α γ} {items : List α}
    {result : β} {last : γ} (first : p.Writes items result) (second : (f result).Writes [] last) :
    (p >>= f).Writes items last := by
  rw [← List.append_nil items]
  exact first.bind second

theorem StreamProg.Reads.bind_last {p : StreamProg α β} {f : β → StreamProg α γ} {items : List α}
    {result : β} {last : γ} (first : p.Reads items result) (second : (f result).Reads [] last) :
    (p >>= f).Reads items last := by
  rw [← List.append_nil items]
  exact first.bind second

/-! ## Two programs and the stream between them -/

structure Link (α β γ : Type) where
  writer : StreamProg α β
  stream : List α
  reader : StreamProg α γ

/-- One call at one of the ends, which moves `k` items. -/
inductive Link.Step : Link α β γ → Link α β γ → Prop
  | write {buf stream : List α} {next : Int → StreamProg α β} {reader : StreamProg α γ} (k : Nat)
      (moves : 0 < k) (fits : k ≤ buf.length) :
      Step ⟨.write buf next, stream, reader⟩ ⟨next k, stream ++ buf.take k, reader⟩
  | read {count : Nat} {stream : List α} {writer : StreamProg α β}
      {next : Int → List α → StreamProg α γ} (k : Nat) (moves : 0 < k) (fits : k ≤ count)
      (there : k ≤ stream.length) :
      Step ⟨writer, stream, .read count next⟩ ⟨writer, stream.drop k, next k (stream.take k)⟩

/-- The writer still has `pending` to write, and the reader takes it behind the stream. -/
structure Link.Flow (l : Link α β γ) (pending : List α) (written : β) (taken : γ) : Prop where
  writes : l.writer.Writes pending written
  reads : l.reader.Reads (l.stream ++ pending) taken

/-- A call keeps the flow and brings the items on their way. -/
theorem Link.Flow.step {l l' : Link α β γ} {pending : List α} {written : β} {taken : γ}
    (flow : l.Flow pending written taken) (step : l.Step l') :
    ∃ pending', l'.Flow pending' written taken ∧
      2 * pending'.length + l'.stream.length < 2 * pending.length + l.stream.length := by
  obtain ⟨writes, reads⟩ := flow
  cases step with
  | @write buf stream next reader k moves fits =>
      cases writes with
      | write some front rest =>
          obtain ⟨after, rfl⟩ := front
          refine ⟨(buf ++ after).drop k, ⟨rest k moves fits, ?_⟩, ?_⟩
          · have moved : stream ++ buf.take k ++ (buf ++ after).drop k =
                stream ++ (buf ++ after) := by
              rw [List.drop_append_of_le_length fits, List.append_assoc,
                ← List.append_assoc _ _ after, List.take_append_drop]
            rw [moved]
            exact reads
          · simp only [List.length_append, List.length_drop, List.length_take]
            omega
  | @read count stream writer next k moves fits there =>
      cases reads with
      | read some enough rest =>
          refine ⟨pending, ⟨writes, ?_⟩, ?_⟩
          · rw [← List.drop_append_of_le_length there, ← List.take_append_of_le_length there]
            exact rest k moves fits
          · simp only [List.length_drop]
            omega

/-- As long as one of the programs has not returned, there is a call that goes on. -/
theorem Link.Flow.progress {l : Link α β γ} {pending : List α} {written : β} {taken : γ}
    (flow : l.Flow pending written taken) :
    (∃ l', l.Step l') ∨ l = ⟨.ret written, [], .ret taken⟩ := by
  obtain ⟨writer, stream, reader⟩ := l
  obtain ⟨writes, reads⟩ := flow
  cases writes with
  | write some front rest =>
      exact .inl ⟨_, .write 1 Nat.one_pos (List.length_pos_iff.mpr some)⟩
  | ret =>
      rw [List.append_nil] at reads
      cases reads with
      | ret => exact .inr rfl
      | read some enough rest =>
          exact .inl ⟨_, .read 1 Nat.one_pos some (Nat.le_trans some enough)⟩

theorem Link.Flow.run {l l' : Link α β γ} {pending : List α} {written : β} {taken : γ}
    (flow : l.Flow pending written taken) (run : Relation.ReflTransGen Link.Step l l') :
    ∃ pending', l'.Flow pending' written taken := by
  induction run with
  | refl => exact ⟨pending, flow⟩
  | tail _ step ih =>
      obtain ⟨_, flow⟩ := ih
      obtain ⟨pending', flow, -⟩ := flow.step step
      exact ⟨pending', flow⟩

/-- No sequence of calls goes on forever. -/
theorem Link.Flow.acc {l : Link α β γ} {pending : List α} {written : β} {taken : γ}
    (flow : l.Flow pending written taken) : Acc (fun l' l => Link.Step l l') l := by
  generalize bound : 2 * pending.length + l.stream.length = n
  induction n using Nat.strongRecOn generalizing l pending with
  | ind n ih =>
      refine .intro l fun l' step => ?_
      obtain ⟨pending', flow', less⟩ := flow.step step
      exact ih _ (bound ▸ less) flow' rfl

end CompNet.Lib
