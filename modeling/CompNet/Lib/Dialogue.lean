import CompNet.Lib.ByteStream
import Mathlib.Logic.Function.Basic
import Mathlib.Tactic.ByContra

/-!
# Programs that talk to each other through pipes

Each end of a dialogue runs a program whose writes go into a pipe towards its
peer and whose reads take from the pipe towards itself.  A write moves the whole
buffer; a read moves at least one item and may be cut short; once the peer has
returned and the pipe is dry, a read finds the end of the stream.  A read that
asks for nothing waits forever.

`Inevitable` says where a run ends however its steps are chosen.  A dialogue has
as many runs as its ends can be interleaved and their reads be cut, but the ends
only meet in the pipes: what one of them can do the others cannot take away.  So
`Inevitable.of_firm` lets a proof run one end as far as it is sure to get, and
the rules behind it run whole programs.
-/

namespace CompNet.Lib

/-! ## What every run comes to -/

section Inevitable

variable {σ τ : Type} {step : σ → σ → Prop} {goal : σ → Prop}

/-- However the steps from a state are chosen, they lead to `goal`. -/
inductive Inevitable (step : σ → σ → Prop) (goal : σ → Prop) : σ → Prop
  | now {s : σ} (reached : goal s) : Inevitable step goal s
  | later {s : σ} (go : ∃ s', step s s') (all : ∀ s', step s s' → Inevitable step goal s') :
      Inevitable step goal s

theorem Inevitable.after_step {s s' : σ} (still : ∀ s, goal s → ∀ s', ¬ step s s')
    (inevitable : Inevitable step goal s) (taken : step s s') : Inevitable step goal s' := by
  cases inevitable with
  | now reached => exact absurd taken (still s reached s')
  | later _ all => exact all s' taken

theorem Inevitable.run {s s' : σ} (still : ∀ s, goal s → ∀ s', ¬ step s s')
    (inevitable : Inevitable step goal s) (run : Relation.ReflTransGen step s s') :
    Inevitable step goal s' := by
  induction run with
  | refl => exact inevitable
  | tail _ taken ih => exact ih.after_step still taken

/-- A state that no step leaves is where the runs were to end. -/
theorem Inevitable.reached {s : σ} (inevitable : Inevitable step goal s)
    (stuck : ∀ s', ¬ step s s') : goal s := by
  cases inevitable with
  | now reached => exact reached
  | later go _ =>
      obtain ⟨s', taken⟩ := go
      exact absurd taken (stuck s')

/-- No run goes on forever. -/
theorem Inevitable.acc {s : σ} (still : ∀ s, goal s → ∀ s', ¬ step s s')
    (inevitable : Inevitable step goal s) : Acc (fun s' s => step s s') s := by
  induction inevitable with
  | @now s reached => exact .intro s fun s' taken => absurd taken (still s reached s')
  | @later s _ _ ih => exact .intro s ih

/-- A system whose steps are steps of one that comes to rest, or use up `fuel`,
and which is never stuck short of `goal`, comes to `goal`. -/
theorem Inevitable.of_simulation {absStep : τ → τ → Prop} {R : σ → τ → Prop} (fuel : σ → Nat)
    (simulates : ∀ s t s', R s t → step s s' →
      (∃ t', absStep t t' ∧ R s' t') ∨ (R s' t ∧ fuel s' < fuel s))
    (progress : ∀ s t, R s t → goal s ∨ ∃ s', step s s') {s : σ} {t : τ} (related : R s t)
    (rests : Acc (fun t' t => absStep t t') t) : Inevitable step goal s := by
  induction rests generalizing s with
  | intro t _ ih =>
      generalize bound : fuel s = n
      induction n using Nat.strongRecOn generalizing s with
      | ind n stutter =>
          rcases progress s t related with reached | go
          · exact .now reached
          · refine .later go fun s' taken => ?_
            rcases simulates s t s' related taken with ⟨t', absTaken, related'⟩ | ⟨related', less⟩
            · exact ih t' absTaken related'
            · exact stutter _ (bound ▸ less) related' rfl

/-- A system that is never stuck short of `goal` and uses up `fuel` comes to `goal`. -/
theorem Inevitable.of_fuel {motive : σ → Prop} (fuel : σ → Nat)
    (spends : ∀ s s', motive s → step s s' → motive s' ∧ fuel s' < fuel s)
    (progress : ∀ s, motive s → goal s ∨ ∃ s', step s s') {s : σ} (start : motive s) :
    Inevitable step goal s :=
  @Inevitable.of_simulation σ Unit step goal (fun _ _ => False) (fun s _ => motive s)
    fuel (fun s _ s' holds taken => .inr (spends s s' holds taken))
    (fun s _ holds => progress s holds) _ () start (.intro () fun _ impossible => impossible.elim)

end Inevitable

/-! ## One program -/

section Programs

variable {α β γ : Type}

/-- One call of a program that finds `inp` in its pipe, and `ended` if nothing
will follow: it takes the first `taken` items, gives `given` to its peer and
leaves a program. -/
inductive StreamProg.Turn : StreamProg α β → List α → Prop → Nat → List α → StreamProg α β → Prop
  | write {buf inp : List α} {ended : Prop} {next : Int → StreamProg α β} :
      Turn (.write buf next) inp ended 0 buf (next buf.length)
  | read {count : Nat} {inp : List α} {ended : Prop} {next : Int → List α → StreamProg α β}
      (k : Nat) (moves : 0 < k) (fits : k ≤ count) (there : k ≤ inp.length) :
      Turn (.read count next) inp ended k [] (next k (inp.take k))
  | eof {count : Nat} {ended : Prop} {next : Int → List α → StreamProg α β} (asks : 0 < count)
      (gone : ended) : Turn (.read count next) [] ended 0 [] (next 0 [])

/-- What the program may do next does not depend on what is still to come. -/
def StreamProg.Firm (p : StreamProg α β) (inp : List α) (ended : Prop) : Prop :=
  match p with
  | .ret _ | .write _ _ => True
  | .read count _ => 0 < count ∧ (count ≤ inp.length ∨ (inp = [] ∧ ended))

variable {p p' : StreamProg α β} {inp given rest : List α} {ended ended' : Prop} {taken : Nat}

theorem StreamProg.Turn.taken_le (turn : p.Turn inp ended taken given p') :
    taken ≤ inp.length := by
  cases turn with
  | write => exact Nat.zero_le _
  | read _ _ _ there => exact there
  | eof _ _ => exact Nat.zero_le _

theorem StreamProg.Turn.not_ret (turn : p.Turn inp ended taken given p') (result : β) :
    p ≠ .ret result := by
  cases turn <;> intro returned <;> cases returned

theorem StreamProg.Turn.of_read {count : Nat} {next : Int → List α → StreamProg α β}
    (turn : (StreamProg.read count next).Turn inp ended taken given p') :
    (0 < taken ∧ taken ≤ count ∧ taken ≤ inp.length ∧ given = [] ∧
      p' = next taken (inp.take taken)) ∨
    (0 < count ∧ inp = [] ∧ ended ∧ taken = 0 ∧ given = [] ∧ p' = next 0 []) := by
  cases turn with
  | read _ moves fits there => exact .inl ⟨moves, fits, there, rfl, rfl⟩
  | eof asks gone => exact .inr ⟨asks, rfl, gone, rfl, rfl, rfl⟩

/-- A call can still be made after more has come. -/
theorem StreamProg.Turn.more (turn : p.Turn inp ended taken given p')
    (last : ended → rest = [] ∧ ended') : p.Turn (inp ++ rest) ended' taken given p' := by
  cases turn with
  | write => exact .write
  | read _ moves fits there =>
      rw [← List.take_append_of_le_length there]
      exact .read taken moves fits (by rw [List.length_append]; omega)
  | eof asks gone =>
      obtain ⟨rfl, gone⟩ := last gone
      exact .eof asks gone

/-- A firm program's calls are there before more comes. -/
theorem StreamProg.Turn.less (turn : p.Turn (inp ++ rest) ended' taken given p')
    (firm : p.Firm inp ended) (last : ended → rest = []) : p.Turn inp ended taken given p' := by
  generalize whole : inp ++ rest = inp' at turn
  cases turn with
  | write => exact .write
  | read _ moves fits there =>
      subst whole
      rcases firm with ⟨-, enough | ⟨dry, gone⟩⟩
      · have inside := Nat.le_trans fits enough
        rw [List.take_append_of_le_length inside]
        exact .read taken moves fits inside
      · rw [dry, last gone] at there
        exact absurd moves (Nat.not_lt.mpr there)
  | eof asks _ =>
      obtain ⟨rfl, rfl⟩ := List.append_eq_nil_iff.mp whole
      rcases firm with ⟨-, enough | ⟨_, gone⟩⟩
      · exact absurd asks (Nat.not_lt.mpr enough)
      · exact .eof asks gone

/-- Whatever its calls are answered, `p` writes only what `W` allows and returns
only what `R` allows. -/
def StreamProg.Keeps (W : List α → Prop) (R : β → Prop) : StreamProg α β → Prop
  | .ret result => R result
  | .write buf next => W buf ∧ ∀ rc, (next rc).Keeps W R
  | .read _ next => ∀ rc got, (next rc got).Keeps W R

theorem StreamProg.Keeps.bind {W : List α → Prop} {R : β → Prop} {R' : γ → Prop}
    {p : StreamProg α β} {f : β → StreamProg α γ} (first : p.Keeps W R)
    (second : ∀ x, R x → (f x).Keeps W R') : (p >>= f).Keeps W R' := by
  induction p with
  | ret result => exact second result first
  | write buf next ih => exact ⟨first.1, fun rc => ih rc (first.2 rc)⟩
  | read count next ih => exact fun rc got => ih rc got (first rc got)

/-- With whole writes, `p` writes `items` and returns `result`. -/
inductive StreamProg.Puts : StreamProg α β → List α → β → Prop
  | ret (result : β) : Puts (.ret result) [] result
  | write {buf items : List α} {next : Int → StreamProg α β} {result : β}
      (rest : Puts (next buf.length) items result) : Puts (.write buf next) (buf ++ items) result

end Programs

/-! ## All ends together -/

/-- The programs, and for each end the pipe towards it. -/
structure Dialogue (ι α : Type) (β : ι → Type) where
  program : ∀ i, StreamProg α (β i)
  pipe : ι → List α

section Dialogue

variable {ι α : Type} {β : ι → Type} [DecidableEq ι] {peer : ι → ι}

/-- The program of `i` has returned. -/
def Dialogue.ended (c : Dialogue ι α β) (i : ι) : Prop := ∃ result, c.program i = .ret result

/-- `i` has taken `taken` items, given `given` to its peer and gone on to `p`. -/
def Dialogue.turn (peer : ι → ι) (c : Dialogue ι α β) (i : ι) (taken : Nat) (given : List α)
    (p : StreamProg α (β i)) : Dialogue ι α β where
  program := Function.update c.program i p
  pipe j := (if j = i then (c.pipe j).drop taken else c.pipe j) ++
    (if j = peer i then given else [])

/-- One call at `i`. -/
inductive Dialogue.Moves (peer : ι → ι) (c : Dialogue ι α β) (i : ι) : Dialogue ι α β → Prop
  | turn {taken : Nat} {given : List α} {p : StreamProg α (β i)}
      (turn : (c.program i).Turn (c.pipe i) (c.ended (peer i)) taken given p) :
      Moves peer c i (c.turn peer i taken given p)

/-- One call at one of the ends. -/
def Dialogue.Step (peer : ι → ι) (c c' : Dialogue ι α β) : Prop := ∃ i, c.Moves peer i c'

/-- What `i` may do next, the others cannot take away. -/
def Dialogue.Firm (peer : ι → ι) (c : Dialogue ι α β) (i : ι) : Prop :=
  (c.program i).Firm (c.pipe i) (c.ended (peer i))

omit [DecidableEq ι] in
theorem Dialogue.not_ended {c : Dialogue ι α β} {i : ι} {inp given : List α} {ended : Prop}
    {taken : Nat} {p : StreamProg α (β i)} (turn : (c.program i).Turn inp ended taken given p) :
    ¬ c.ended i := by
  rintro ⟨result, returned⟩
  exact turn.not_ret result returned

/-! ### Two ends do not get in each other's way -/

section Beside

variable {c : Dialogue ι α β} {i j : ι} {taken taken' : Nat} {given given' inp : List α}
  {ended : Prop} {p : StreamProg α (β i)} {q : StreamProg α (β j)}

@[simp] theorem Dialogue.turn_program_self : (c.turn peer i taken given p).program i = p := by
  simp [Dialogue.turn]

theorem Dialogue.turn_program_of_ne (apart : j ≠ i) :
    (c.turn peer i taken given p).program j = c.program j := by
  simp [Dialogue.turn, apart]

theorem Dialogue.turn_pipe_of_ne (apart : j ≠ i) :
    (c.turn peer i taken given p).pipe j = c.pipe j ++ (if j = peer i then given else []) := by
  rw [Dialogue.turn]
  dsimp only
  rw [if_neg apart]

/-- An end that waits for `i`, which has not returned, is not at the end of its stream. -/
theorem Dialogue.last_of_turn (involutive : Function.Involutive peer)
    (turn : (c.program i).Turn inp ended taken given p) :
    c.ended (peer j) → (if j = peer i then given else []) = [] ∧
      (c.turn peer i taken given p).ended (peer j) := by
  intro gone
  have other : peer j ≠ i := by
    rintro rfl
    exact Dialogue.not_ended turn gone
  have apart : j ≠ peer i := by
    rintro rfl
    exact other (involutive i)
  refine ⟨if_neg apart, ?_⟩
  obtain ⟨result, returned⟩ := gone
  exact ⟨result, (Dialogue.turn_program_of_ne other).trans returned⟩

/-- A call of `j` can still be made after one of `i`. -/
theorem Dialogue.turn_beside (involutive : Function.Involutive peer) (apart : j ≠ i)
    (first : (c.program i).Turn inp ended taken given p)
    (second : (c.program j).Turn (c.pipe j) (c.ended (peer j)) taken' given' q) :
    ((c.turn peer i taken given p).program j).Turn ((c.turn peer i taken given p).pipe j)
      ((c.turn peer i taken given p).ended (peer j)) taken' given' q := by
  rw [Dialogue.turn_program_of_ne apart, Dialogue.turn_pipe_of_ne apart]
  exact second.more (Dialogue.last_of_turn involutive first)

/-- The calls of a firm end were there before another end moved. -/
theorem Dialogue.turn_before (involutive : Function.Involutive peer) (apart : j ≠ i)
    (firm : c.Firm peer j) (first : (c.program i).Turn inp ended taken given p)
    (second : ((c.turn peer i taken given p).program j).Turn
      ((c.turn peer i taken given p).pipe j) ((c.turn peer i taken given p).ended (peer j))
      taken' given' q) :
    (c.program j).Turn (c.pipe j) (c.ended (peer j)) taken' given' q := by
  rw [Dialogue.turn_program_of_ne apart, Dialogue.turn_pipe_of_ne apart] at second
  exact second.less firm fun gone => (Dialogue.last_of_turn involutive first gone).1

theorem Dialogue.turn_comm (involutive : Function.Involutive peer) (apart : j ≠ i)
    (fits : taken ≤ (c.pipe i).length) (fits' : taken' ≤ (c.pipe j).length) :
    (c.turn peer i taken given p).turn peer j taken' given' q =
      (c.turn peer j taken' given' q).turn peer i taken given p := by
  have pipes : peer j ≠ peer i := fun same => apart (involutive.injective same)
  unfold Dialogue.turn
  rw [Dialogue.mk.injEq]
  refine ⟨Function.update_comm apart.symm p q c.program, ?_⟩
  funext m
  dsimp only
  -- at most one of the two drops from the pipe, and at most one appends to it
  have swap : (if m = peer i then given else []) ++ (if m = peer j then given' else []) =
      (if m = peer j then given' else []) ++ (if m = peer i then given else []) := by
    by_cases writer : m = peer i
    · rw [if_pos writer, if_neg fun both => pipes (both.symm.trans writer), List.append_nil,
        List.nil_append]
    · rw [if_neg writer, List.append_nil, List.nil_append]
  by_cases reader : m = i
  · subst reader
    rw [if_neg apart.symm, if_pos rfl, if_neg apart.symm, if_pos rfl,
      List.drop_append_of_le_length fits, List.append_assoc, List.append_assoc, swap]
  by_cases reader' : m = j
  · subst reader'
    rw [if_pos rfl, if_neg apart, if_neg apart, if_pos rfl,
      List.drop_append_of_le_length fits', List.append_assoc, List.append_assoc, swap]
  · rw [if_neg reader, if_neg reader', if_neg reader', if_neg reader, List.append_assoc,
      List.append_assoc, swap]

end Beside

section Interleavings

variable {c c₁ c₂ d : Dialogue ι α β} {i j : ι}

theorem Dialogue.Moves.commute (involutive : Function.Involutive peer) (apart : j ≠ i)
    (first : c.Moves peer i c₁) (second : c.Moves peer j c₂) :
    ∃ d, c₁.Moves peer j d ∧ c₂.Moves peer i d := by
  obtain ⟨turn⟩ := first
  obtain ⟨turn'⟩ := second
  refine ⟨_, .turn (Dialogue.turn_beside involutive apart turn turn'), ?_⟩
  rw [Dialogue.turn_comm involutive apart turn.taken_le turn'.taken_le]
  exact .turn (Dialogue.turn_beside involutive apart.symm turn' turn)

theorem Dialogue.Moves.before (involutive : Function.Involutive peer) (apart : j ≠ i)
    (firm : c.Firm peer j) (first : c.Moves peer i c₁) (second : c₁.Moves peer j d) :
    ∃ c₂, c.Moves peer j c₂ ∧ c₂.Moves peer i d := by
  obtain ⟨turn⟩ := first
  obtain ⟨turn'⟩ := second
  have early := Dialogue.turn_before involutive apart firm turn turn'
  refine ⟨_, .turn early, ?_⟩
  rw [Dialogue.turn_comm involutive apart turn.taken_le early.taken_le]
  exact .turn (Dialogue.turn_beside involutive apart.symm early turn)

/-- A firm end stays firm while the others move. -/
theorem Dialogue.Firm.beside (involutive : Function.Involutive peer) (apart : j ≠ i)
    (firm : c.Firm peer j) (first : c.Moves peer i c₁) : c₁.Firm peer j := by
  obtain ⟨turn⟩ := first
  have last := Dialogue.last_of_turn (j := j) involutive turn
  rw [Dialogue.Firm, Dialogue.turn_program_of_ne apart, Dialogue.turn_pipe_of_ne apart]
  unfold Dialogue.Firm at firm
  cases head : c.program j with
  | ret _ => exact trivial
  | write _ _ => exact trivial
  | read count next =>
      rw [head] at firm
      rcases firm with ⟨asks, enough | ⟨dry, gone⟩⟩
      · exact ⟨asks, .inl (Nat.le_trans enough (by rw [List.length_append]; omega))⟩
      · obtain ⟨nothing, gone'⟩ := last gone
        exact ⟨asks, .inr ⟨by rw [dry, nothing]; rfl, gone'⟩⟩

/-- Every end has returned its result. -/
def Dialogue.Returned (result : ∀ i, β i) (c : Dialogue ι α β) : Prop :=
  ∀ i, c.program i = .ret (result i)

/-- Whatever the interleaving and however the reads are cut short, every end
returns its result. -/
abbrev Dialogue.Settles (peer : ι → ι) (result : ∀ i, β i) : Dialogue ι α β → Prop :=
  Inevitable (Dialogue.Step peer) (Dialogue.Returned result)

variable {result : ∀ i, β i}

theorem Dialogue.Returned.still (c : Dialogue ι α β) (returned : c.Returned result)
    (c' : Dialogue ι α β) : ¬ Dialogue.Step peer c c' := by
  rintro ⟨i, ⟨turn⟩⟩
  exact turn.not_ret (result i) (returned i)

/-- A firm end may go first. -/
theorem Dialogue.Settles.of_firm (involutive : Function.Involutive peer) (firm : c.Firm peer i)
    (can : ∃ c', c.Moves peer i c') (all : ∀ c', c.Moves peer i c' → c'.Settles peer result) :
    c.Settles peer result := by
  obtain ⟨c₁, move⟩ := can
  have settles := all c₁ move
  -- the others' calls lead to dialogues whose first calls at `i` lead on from `c₁`
  induction settles generalizing c with
  | @now c₁ returned =>
      refine .later ⟨c₁, i, move⟩ fun c₂ step => ?_
      obtain ⟨j, other⟩ := step
      by_cases same : j = i
      · subst same
        exact all c₂ other
      · obtain ⟨d, onward, -⟩ := move.commute involutive same other
        exact absurd ⟨j, onward⟩ (returned.still c₁ d)
  | @later c₁ _ _ ih =>
      refine .later ⟨c₁, i, move⟩ fun c₂ step => ?_
      obtain ⟨j, other⟩ := step
      by_cases same : j = i
      · subst same
        exact all c₂ other
      · obtain ⟨d, onward, move'⟩ := move.commute involutive same other
        refine ih d ⟨j, onward⟩ (firm.beside involutive (Ne.symm same) other) ?_ move'
        intro d' first
        obtain ⟨c', early, onward'⟩ := other.before involutive (Ne.symm same) firm first
        exact (all c' early).after_step Dialogue.Returned.still ⟨j, onward'⟩

/-- A call that asks for nothing is never answered, so no end that returns makes it. -/
theorem Dialogue.Settles.asks (settles : c.Settles peer result) {i : ι} {count : Nat}
    {next : Int → List α → StreamProg α (β i)} (head : c.program i = .read count next) :
    0 < count := by
  induction settles with
  | now returned =>
      rw [returned i] at head
      cases head
  | @later c go _ ih =>
      obtain ⟨c', j, ⟨turn⟩⟩ := go
      by_cases same : i = j
      · subst same
        rw [head] at turn
        rcases turn.of_read with ⟨moves, fits, -⟩ | ⟨asks, -⟩
        · exact Nat.lt_of_lt_of_le moves fits
        · exact asks
      · refine ih _ ⟨j, .turn turn⟩ ?_
        rw [Dialogue.turn_program_of_ne same]
        exact head

/-! ### Running one end -/

theorem Dialogue.turn_taken {taken taken' : Nat} {p q : StreamProg α (β i)} :
    (c.turn peer i taken [] p).turn peer i taken' [] q =
      c.turn peer i (taken + taken') [] q := by
  unfold Dialogue.turn
  rw [Dialogue.mk.injEq]
  refine ⟨by simp, ?_⟩
  funext m
  by_cases reader : m = i <;> simp [reader]

theorem Dialogue.turn_given {given given' : List α} {p q : StreamProg α (β i)} :
    (c.turn peer i 0 given p).turn peer i 0 given' q =
      c.turn peer i 0 (given ++ given') q := by
  unfold Dialogue.turn
  rw [Dialogue.mk.injEq]
  refine ⟨by simp, ?_⟩
  funext m
  by_cases writer : m = peer i <;> simp [writer]

theorem Dialogue.turn_nothing {p : StreamProg α (β i)} (head : c.program i = p) :
    c.turn peer i 0 [] p = c := by
  unfold Dialogue.turn
  simp [← head]

theorem Dialogue.Settles.write (involutive : Function.Involutive peer) {buf : List α}
    {next : Int → StreamProg α (β i)} (head : c.program i = .write buf next)
    (after : (c.turn peer i 0 buf (next buf.length)).Settles peer result) :
    c.Settles peer result := by
  have firm : c.Firm peer i := by
    rw [Dialogue.Firm, head]
    exact trivial
  refine .of_firm involutive firm ⟨_, .turn (by rw [head]; exact .write)⟩ fun c' move => ?_
  obtain ⟨turn⟩ := move
  rw [head] at turn
  cases turn with
  | write => exact after

theorem Dialogue.Settles.eof (involutive : Function.Involutive peer) {count : Nat}
    {next : Int → List α → StreamProg α (β i)} (head : c.program i = .read count next)
    (asks : 0 < count) (dry : c.pipe i = []) (gone : c.ended (peer i))
    (after : (c.turn peer i 0 [] (next 0 [])).Settles peer result) : c.Settles peer result := by
  have firm : c.Firm peer i := by
    rw [Dialogue.Firm, head]
    exact ⟨asks, .inr ⟨dry, gone⟩⟩
  have last : (c.program i).Turn (c.pipe i) (c.ended (peer i)) 0 [] (next 0 []) := by
    rw [head, dry]
    exact .eof asks gone
  refine .of_firm involutive firm ⟨_, .turn last⟩ fun c' move => ?_
  obtain ⟨turn⟩ := move
  rw [head, dry] at turn
  rcases turn.of_read with ⟨moves, -, there, -⟩ | ⟨-, -, -, rfl, rfl, rfl⟩
  · exact absurd moves (Nat.not_lt.mpr there)
  · exact after

/-- An end whose pipe holds all that its program reads may run the program. -/
theorem Dialogue.Settles.reads (involutive : Function.Involutive peer) {γ : Type}
    {p : StreamProg α γ} {f : γ → StreamProg α (β i)} {items rest : List α} {x : γ}
    (reads : p.Reads items x) (head : c.program i = p >>= f) (pipe : c.pipe i = items ++ rest)
    (after : (c.turn peer i items.length [] (f x)).Settles peer result) :
    c.Settles peer result := by
  induction reads generalizing c with
  | ret x =>
      replace head : c.program i = f x := head
      rw [List.length_nil, Dialogue.turn_nothing head] at after
      exact after
  | @read count items next x some enough _ ih =>
      replace head : c.program i = .read count fun rc got => (next rc got).bind f := head
      have there : count ≤ (c.pipe i).length := by
        rw [pipe, List.length_append]
        omega
      have firm : c.Firm peer i := by
        rw [Dialogue.Firm, head]
        exact ⟨some, .inl there⟩
      refine .of_firm involutive firm
        ⟨_, .turn (by rw [head]; exact .read count some (Nat.le_refl _) there)⟩ fun c' move => ?_
      obtain ⟨turn⟩ := move
      rw [head] at turn
      rcases turn.of_read with ⟨moves, fits, -, rfl, rfl⟩ | ⟨-, dry, -⟩
      · have front := Nat.le_trans fits enough
        rw [pipe, List.take_append_of_le_length front]
        refine ih _ moves fits (Dialogue.turn_program_self ..) ?_ ?_
        · simp [Dialogue.turn, pipe, List.drop_append_of_le_length front]
        · rw [Dialogue.turn_taken, List.length_drop,
            Nat.add_sub_cancel' (Nat.le_trans fits enough)]
          exact after
      · rw [dry] at there
        exact absurd some (Nat.not_lt.mpr there)

/-- An end may run a program that only writes. -/
theorem Dialogue.Settles.puts (involutive : Function.Involutive peer) {γ : Type}
    {p : StreamProg α γ} {f : γ → StreamProg α (β i)} {items : List α} {x : γ}
    (puts : p.Puts items x) (head : c.program i = p >>= f)
    (after : (c.turn peer i 0 items (f x)).Settles peer result) : c.Settles peer result := by
  induction puts generalizing c with
  | ret x =>
      replace head : c.program i = f x := head
      rw [Dialogue.turn_nothing head] at after
      exact after
  | @write buf items next x _ ih =>
      replace head : c.program i = .write buf fun rc => (next rc).bind f := head
      refine .write involutive head (ih (Dialogue.turn_program_self ..) ?_)
      rw [Dialogue.turn_given]
      exact after

end Interleavings

end Dialogue

end CompNet.Lib
