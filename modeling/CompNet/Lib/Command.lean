import Mathlib.Data.List.Forall2
import Mathlib.Data.Option.Defs

/-!
# Commands

Rules for programs that can fail: `Except` for those without a state, `EStateM`
for those with one, where a failure keeps the state it happens in.  `Triple` is
partial correctness; `Lockstep` relates two programs that fail together and, as
long as they do not, return related values in related states; `Extends` says that
one program returns whatever the other returns; `Erases` that a program with more state
does to a part of it what another one does.
-/

namespace CompNet.Lib

/-! ## Without a state -/

section

variable {ε α β : Type}

@[simp] theorem ok_bind (a : α) (f : α → Except ε β) : (Except.ok a >>= f) = f a := rfl
@[simp] theorem error_bind (e : ε) (f : α → Except ε β) : (Except.error e >>= f) = .error e := rfl
@[simp] theorem pure_eq_ok (a : α) : (pure a : Except ε α) = .ok a := rfl

/-- What succeeds has had its first part succeed. -/
theorem ok_of_bind {x : Except ε α} {f : α → Except ε β} {b : β} (run : (x >>= f) = .ok b) :
    ∃ a, x = .ok a ∧ f a = .ok b := by
  cases x with
  | ok a => exact ⟨a, rfl, run⟩
  | error e => cases run

/-- An error that neither part gives. -/
theorem bind_ne_error {x : Except ε α} {f : α → Except ε β} {e : ε} (first : x ≠ .error e)
    (later : ∀ a, x = .ok a → f a ≠ .error e) : (x >>= f) ≠ .error e := by
  cases x with
  | ok a => exact later a rfl
  | error fault =>
      intro same
      apply first
      cases same
      rfl

end

/-! ## With a state -/

section

variable {ε σ α β : Type} {c : EStateM ε σ α} {f : α → EStateM ε σ β}

theorem bind_ok {s t : σ} {a : α} (first : c s = .ok a t) : (c >>= f) s = f a t := by
  show EStateM.bind c f s = f a t
  rw [EStateM.bind, first]

theorem bind_error {s t : σ} {e : ε} (first : c s = .error e t) : (c >>= f) s = .error e t := by
  show EStateM.bind c f s = .error e t
  rw [EStateM.bind, first]

/-- A sequence returns if its parts do. -/
theorem bind_eq_ok {s t : σ} {b : β} :
    (c >>= f) s = .ok b t ↔ ∃ a u, c s = .ok a u ∧ f a u = .ok b t := by
  cases first : c s with
  | ok a u =>
      rw [bind_ok first]
      constructor
      · exact fun second => ⟨a, u, rfl, second⟩
      · intro given
        rcases given with ⟨a', u', same, second⟩
        cases same
        exact second
  | error e u =>
      rw [bind_error first]
      constructor
      · intro same
        cases same
      · intro given
        rcases given with ⟨a', u', same, -⟩
        cases same

/-- The first turn of a loop, and the others. -/
theorem forM_cons (x : α) (xs : List α) (body : α → EStateM ε σ PUnit) :
    (x :: xs).forM body = body x >>= fun _ => xs.forM body := rfl

/-- A loop goes on where its first part has ended. -/
theorem forM_append_ok {xs ys : List α} {body : α → EStateM ε σ PUnit} {s t : σ}
    (first : xs.forM body s = .ok () t) : (xs ++ ys).forM body s = ys.forM body t := by
  induction xs generalizing s with
  | nil =>
      cases first
      rfl
  | cons x xs ih =>
      rw [forM_cons] at first
      obtain ⟨_, u, turn, rest⟩ := bind_eq_ok.mp first
      rw [List.cons_append, forM_cons, bind_ok turn]
      exact ih rest

/-! ## Partial correctness -/

/-- From `P`, a return value and the state it comes with satisfy `Q`. -/
def Triple (P : σ → Prop) (c : EStateM ε σ α) (Q : α → σ → Prop) : Prop :=
  ∀ s a t, P s → c s = .ok a t → Q a t

theorem Triple.pure {Q : α → σ → Prop} (a : α) : Triple (Q a) (Pure.pure a : EStateM ε σ α) Q := by
  intro s b t holds same
  cases same
  exact holds

theorem Triple.throw {P : σ → Prop} {Q : α → σ → Prop} (e : ε) :
    Triple P (MonadExcept.throw e : EStateM ε σ α) Q := by
  intro s b t _ same
  cases same

theorem Triple.bind {P : σ → Prop} {Q : α → σ → Prop} {S : β → σ → Prop} (first : Triple P c Q)
    (second : ∀ a, Triple (Q a) (f a) S) : Triple P (c >>= f) S := by
  intro s b t holds returns
  obtain ⟨a, u, left, right⟩ := bind_eq_ok.mp returns
  exact second a u b t (first s a u holds left) right

/-- What the state before does not enter into is assumed once. -/
theorem Triple.assume {p : Prop} {P : σ → Prop} {Q : α → σ → Prop} (triple : p → Triple P c Q) :
    Triple (fun s => p ∧ P s) c Q :=
  fun s a t holds returns => triple holds.1 s a t holds.2 returns

/-- A loop keeps what every turn keeps. -/
theorem Triple.forM {P : σ → Prop} {body : α → EStateM ε σ PUnit} {xs : List α}
    (turn : ∀ x ∈ xs, Triple P (body x) fun _ => P) : Triple P (xs.forM body) fun _ => P := by
  induction xs with
  | nil => exact Triple.pure (Q := fun _ => P) ()
  | cons x xs ih =>
      rw [forM_cons]
      exact Triple.bind (turn x List.mem_cons_self)
        fun _ => ih fun y member => turn y (List.mem_cons_of_mem x member)

/-! ## Two programs in lockstep -/

/-- The outcomes of two programs: both return related values, or both fail alike, in
related states. -/
def Outcomes (R : σ → σ → Prop) (V : α → α → Prop) :
    EStateM.Result ε σ α → EStateM.Result ε σ α → Prop
  | .ok a s, .ok b t => V a b ∧ R s t
  | .error e s, .error e' t => e = e' ∧ R s t
  | _, _ => False

theorem Outcomes.of_ok {R : σ → σ → Prop} {V : α → α → Prop} {a : α} {s : σ}
    {r : EStateM.Result ε σ α} (outcomes : Outcomes R V (.ok a s) r) :
    ∃ b t, r = .ok b t ∧ V a b ∧ R s t := by
  cases r with
  | ok b t => exact ⟨b, t, rfl, outcomes⟩
  | error e t => exact outcomes.elim

theorem Outcomes.of_error {R : σ → σ → Prop} {V : α → α → Prop} {e : ε} {s : σ}
    {r : EStateM.Result ε σ α} (outcomes : Outcomes R V (.error e s) r) :
    ∃ t, r = .error e t ∧ R s t := by
  cases r with
  | ok b t => exact outcomes.elim
  | error e' t =>
      obtain ⟨rfl, states⟩ := outcomes
      exact ⟨t, rfl, states⟩

def Lockstep (R : σ → σ → Prop) (V : α → α → Prop) (c d : EStateM ε σ α) : Prop :=
  ∀ s t, R s t → Outcomes R V (c s) (d t)

section

variable {R : σ → σ → Prop} {V : α → α → Prop} {W : β → β → Prop} {d : EStateM ε σ α}
  {g : α → EStateM ε σ β}

theorem Lockstep.pure {a b : α} (related : V a b) :
    Lockstep R V (Pure.pure a : EStateM ε σ α) (Pure.pure b) :=
  fun _ _ states => ⟨related, states⟩

theorem Lockstep.throw (e : ε) :
    Lockstep R V (MonadExcept.throw e : EStateM ε σ α) (MonadExcept.throw e) :=
  fun _ _ states => ⟨rfl, states⟩

theorem Lockstep.bind (first : Lockstep R V c d)
    (second : ∀ a b, V a b → Lockstep R W (f a) (g b)) :
    Lockstep R W (c >>= f) (d >>= g) := by
  intro s t states
  have outcomes := first s t states
  cases left : c s with
  | ok a s' =>
      rw [left] at outcomes
      obtain ⟨b, t', right, values, states'⟩ := outcomes.of_ok
      rw [bind_ok left, bind_ok right]
      exact second a b values s' t' states'
  | error e s' =>
      rw [left] at outcomes
      obtain ⟨t', right, states'⟩ := outcomes.of_error
      rw [bind_error left, bind_error right]
      exact ⟨rfl, states'⟩

theorem Lockstep.forM {δ : Type} {body body' : δ → EStateM ε σ PUnit} {xs ys : List δ}
    {related : δ → δ → Prop} (items : List.Forall₂ related xs ys)
    (turn : ∀ x y, related x y → Lockstep R (fun _ _ => True) (body x) (body' y)) :
    Lockstep R (fun _ _ => True) (xs.forM body) (ys.forM body') := by
  induction items with
  | nil => exact Lockstep.pure trivial
  | cons head _ ih =>
      rw [forM_cons, forM_cons]
      exact Lockstep.bind (turn _ _ head) fun _ _ _ => ih

end

/-! What the steps of two programs do with lists that are related item by item. -/

theorem forall₂_head? {δ : Type} {related : δ → δ → Prop} {xs ys : List δ}
    (items : List.Forall₂ related xs ys) : Option.Rel related xs.head? ys.head? := by
  cases items with
  | nil => exact .none
  | cons head _ => exact .some head

theorem forall₂_find? {δ : Type} {related : δ → δ → Prop} {xs ys : List δ} {p : δ → Bool}
    (items : List.Forall₂ related xs ys) (agree : ∀ x y, related x y → p x = p y) :
    Option.Rel related (xs.find? p) (ys.find? p) := by
  induction items with
  | nil => exact .none
  | @cons x y xs ys head _ ih =>
      rw [List.find?_cons, List.find?_cons, agree x y head]
      cases p y with
      | true => exact .some head
      | false => exact ih

theorem forall₂_eraseP {δ : Type} {related : δ → δ → Prop} {xs ys : List δ} {p : δ → Bool}
    (items : List.Forall₂ related xs ys) (agree : ∀ x y, related x y → p x = p y) :
    List.Forall₂ related (xs.eraseP p) (ys.eraseP p) := by
  induction items with
  | nil => exact .nil
  | @cons x y xs ys head rest ih =>
      rw [List.eraseP_cons, List.eraseP_cons, agree x y head]
      cases p y with
      | true => exact rest
      | false => exact .cons head ih

/-! ## Programs that return more often -/

/-- Whatever `c` returns, `d` returns as well. -/
def Extends (c d : EStateM ε σ α) : Prop := ∀ s a t, c s = .ok a t → d s = .ok a t

theorem Extends.refl (c : EStateM ε σ α) : Extends c c := fun _ _ _ returns => returns

theorem Extends.bind {d : EStateM ε σ α} {g : α → EStateM ε σ β} (first : Extends c d)
    (second : ∀ a, Extends (f a) (g a)) : Extends (c >>= f) (d >>= g) := by
  intro s b t returns
  obtain ⟨a, u, left, right⟩ := bind_eq_ok.mp returns
  exact bind_eq_ok.mpr ⟨a, u, first s a u left, second a u b t right⟩

theorem Extends.forM {body body' : α → EStateM ε σ PUnit} (turn : ∀ x, Extends (body x) (body' x))
    (xs : List α) : Extends (xs.forM body) (xs.forM body') := by
  induction xs with
  | nil => exact Extends.refl _
  | cons x xs ih =>
      rw [forM_cons, forM_cons]
      exact Extends.bind (turn x) fun _ => ih

/-! ## Programs with more state

A state `τ` of which `view` is the part that another program works on, and `put` puts a
new part into it. -/

section

variable {τ : Type} {view : τ → σ} {put : σ → τ → τ} {d : EStateM ε τ α} {g : α → EStateM ε τ β}

/-- A program on the part of the state. -/
def onView (view : τ → σ) (put : σ → τ → τ) (c : EStateM ε σ α) : EStateM ε τ α := fun s =>
  match c (view s) with
  | .ok a t => .ok a (put t s)
  | .error e t => .error e (put t s)

theorem onView_eq_ok {s t : τ} {a : α} (returns : onView view put c s = .ok a t) :
    ∃ u, c (view s) = .ok a u ∧ t = put u s := by
  unfold onView at returns
  split at returns
  · next first =>
      cases returns
      exact ⟨_, first, rfl⟩
  · cases returns

/-- An outcome without the rest of the state. -/
def viewed (view : τ → σ) : EStateM.Result ε τ α → EStateM.Result ε σ α
  | .ok a s => .ok a (view s)
  | .error e s => .error e (view s)

/-- On the part of the state, `d` does what `c` does. -/
def Erases (view : τ → σ) (d : EStateM ε τ α) (c : EStateM ε σ α) : Prop :=
  ∀ s, viewed view (d s) = c (view s)

theorem Erases.pure (a : α) : Erases view (Pure.pure a : EStateM ε τ α) (Pure.pure a) :=
  fun _ => rfl

theorem Erases.throw (e : ε) :
    Erases view (MonadExcept.throw e : EStateM ε τ α) (MonadExcept.throw e) :=
  fun _ => rfl

theorem Erases.onView (same : ∀ t s, view (put t s) = t) (c : EStateM ε σ α) :
    Erases view (CompNet.Lib.onView view put c) c := by
  intro s
  unfold CompNet.Lib.onView
  split
  · next first => rw [first, viewed, same]
  · next first => rw [first, viewed, same]

theorem Erases.bind (first : Erases view d c) (second : ∀ a, Erases view (g a) (f a)) :
    Erases view (d >>= g) (c >>= f) := by
  intro s
  have left := first s
  cases result : d s with
  | ok a t =>
      rw [result] at left
      rw [bind_ok result, bind_ok left.symm]
      exact second a t
  | error e t =>
      rw [result] at left
      rw [bind_error result, bind_error left.symm]
      rfl

theorem Erases.forM {body : α → EStateM ε τ PUnit} {body' : α → EStateM ε σ PUnit}
    (turn : ∀ x, Erases view (body x) (body' x)) (xs : List α) :
    Erases view (xs.forM body) (xs.forM body') := by
  induction xs with
  | nil => exact Erases.pure _
  | cons x xs ih =>
      rw [forM_cons, forM_cons]
      exact Erases.bind (turn x) fun _ => ih

end

end

end CompNet.Lib
