import Mathlib.Data.List.Basic

/-!
# Labelled paths

A relation `step s a t` read as an edge from `s` to `t` with label `a`, and the
paths that spell a list of labels.  Runs of a state machine over a list of
actions are such paths, and so are the positions a reader passes through while
it works along a list of items.
-/

namespace CompNet.Lib

variable {σ : Type*} {α : Type*} {step : σ → α → σ → Prop} {s t u : σ} {a : α} {as bs : List α}

/-- A path of `step` whose edges carry the labels of a list, in order. -/
inductive Path (step : σ → α → σ → Prop) : σ → List α → σ → Prop
  | nil (s : σ) : Path step s [] s
  | cons {s t u : σ} {a : α} {as : List α} (edge : step s a t) (rest : Path step t as u) :
      Path step s (a :: as) u

theorem Path.nil_iff : Path step s [] t ↔ t = s := by
  constructor
  · intro path
    cases path
    rfl
  · rintro rfl
    exact .nil _

theorem Path.cons_iff : Path step s (a :: as) u ↔ ∃ t, step s a t ∧ Path step t as u := by
  constructor
  · intro path
    cases path with
    | cons edge rest => exact ⟨_, edge, rest⟩
  · intro given
    rcases given with ⟨t, edge, rest⟩
    exact .cons edge rest

/-- A path along two lists is a path along the first and a path along the second. -/
theorem Path.append_iff :
    Path step s (as ++ bs) u ↔ ∃ t, Path step s as t ∧ Path step t bs u := by
  induction as generalizing s with
  | nil =>
      constructor
      · intro path
        exact ⟨s, .nil s, path⟩
      · intro given
        rcases given with ⟨t, empty, path⟩
        rw [nil_iff] at empty
        subst empty
        exact path
  | cons a as ih =>
      rw [List.cons_append, cons_iff]
      constructor
      · intro given
        rcases given with ⟨t, edge, rest⟩
        obtain ⟨v, front, back⟩ := ih.mp rest
        exact ⟨v, .cons edge front, back⟩
      · intro given
        rcases given with ⟨v, front, back⟩
        obtain ⟨t, edge, rest⟩ := cons_iff.mp front
        exact ⟨t, edge, ih.mpr ⟨v, rest, back⟩⟩

/-- A path is extended by one edge at its end. -/
theorem Path.snoc (path : Path step s as t) (edge : step t a u) : Path step s (as ++ [a]) u :=
  append_iff.mpr ⟨t, path, .cons edge (.nil u)⟩

theorem Path.snoc_iff : Path step s (as ++ [a]) u ↔ ∃ t, Path step s as t ∧ step t a u := by
  rw [append_iff]
  constructor
  · intro given
    rcases given with ⟨t, front, back⟩
    obtain ⟨v, edge, done⟩ := cons_iff.mp back
    rw [nil_iff] at done
    subst done
    exact ⟨t, front, edge⟩
  · intro given
    rcases given with ⟨t, front, edge⟩
    exact ⟨t, front, .cons edge (.nil u)⟩

/-- A loop edge can be taken any number of times. -/
theorem Path.replicate (loop : step s a s) (n : Nat) : Path step s (List.replicate n a) s := by
  induction n with
  | zero => exact .nil s
  | succ n ih => exact .cons loop ih

/-- A path stays a path when more edges are allowed. -/
theorem Path.mono {step' : σ → α → σ → Prop} (more : ∀ s a t, step s a t → step' s a t)
    (path : Path step s as t) : Path step' s as t := by
  induction path with
  | nil s => exact .nil s
  | cons edge _ ih => exact .cons (more _ _ _ edge) ih

/-- What every edge preserves, every path preserves. -/
theorem Path.invariant {motive : σ → Prop}
    (keeps : ∀ s a t, step s a t → motive s → motive t)
    (path : Path step s as t) (start : motive s) : motive t := by
  induction path with
  | nil s => exact start
  | cons edge _ ih => exact ih (keeps _ _ _ edge start)

/-- What every edge says of its label holds of all labels. -/
theorem Path.forall_mem {motive : α → Prop} (each : ∀ s a t, step s a t → motive a)
    (path : Path step s as t) : ∀ a ∈ as, motive a := by
  induction path with
  | nil s => exact fun a member => absurd member List.not_mem_nil
  | cons edge _ ih => exact List.forall_mem_cons.mpr ⟨each _ _ _ edge, ih⟩

/-- Two relations with the same edges wherever a path can come have the same paths. -/
theorem Path.congr {step' : σ → α → σ → Prop} {motive : σ → Prop}
    (keeps : ∀ s a t, motive s → step s a t → motive t)
    (same : ∀ s a t, motive s → (step s a t ↔ step' s a t)) (start : motive s) :
    Path step s as t ↔ Path step' s as t := by
  induction as generalizing s with
  | nil => rw [nil_iff, nil_iff]
  | cons a as ih =>
      rw [cons_iff, cons_iff]
      constructor
      · intro given
        rcases given with ⟨v, edge, rest⟩
        exact ⟨v, (same s a v start).mp edge, (ih (keeps s a v start edge)).mp rest⟩
      · intro given
        rcases given with ⟨v, edge, rest⟩
        have edge := (same s a v start).mpr edge
        exact ⟨v, edge, (ih (keeps s a v start edge)).mpr rest⟩

/-! ## Paths of a partial function -/

/-- Run a partial transition function along a list of labels. -/
def follow (next : σ → α → Option σ) (s : σ) : List α → Option σ
  | [] => some s
  | a :: as =>
      match next s a with
      | none => none
      | some t => follow next t as

/-- What `follow` computes is a path of the function's graph. -/
theorem Path.of_follow {next : σ → α → Option σ} (ran : follow next s as = some t) :
    Path (fun s a t => next s a = some t) s as t := by
  induction as generalizing s with
  | nil =>
      cases ran
      exact .nil _
  | cons a as ih =>
      rw [follow] at ran
      split at ran
      · cases ran
      · next edge => exact .cons edge (ih ran)

/-! ## Paths of a function that may fail -/

section

variable {ε : Type*} {allowed : σ → α → Prop} [∀ s a, Decidable (allowed s a)]
  {run : σ → α → Option (Except ε σ)}

/-- The state after an allowed action that returns. -/
def afterAllowed (allowed : σ → α → Prop) [∀ s a, Decidable (allowed s a)]
    (run : σ → α → Option (Except ε σ)) (s : σ) (a : α) : Option σ :=
  if allowed s a then (run s a).bind Except.toOption else none

/-- What `follow` computes of such actions is a path of those that are allowed and return. -/
theorem Path.of_follow_allowed (ran : follow (afterAllowed allowed run) s as = some t) :
    Path (fun s a t => allowed s a ∧ run s a = some (.ok t)) s as t := by
  refine (Path.of_follow ran).mono ?_
  intro s a t stepped
  unfold afterAllowed at stepped
  split at stepped
  · next fine =>
      obtain ⟨result, ran, returned⟩ := Option.bind_eq_some_iff.mp stepped
      cases result with
      | error e => cases returned
      | ok u =>
          cases returned
          exact ⟨fine, ran⟩
  · cases stepped

end

end CompNet.Lib
