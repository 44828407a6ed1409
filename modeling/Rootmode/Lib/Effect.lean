import Mathlib.Logic.Relation
import Rootmode.Lib.Checked

namespace Lib

/-- A computation that talks to a state as it goes.  What it did to the state stays done when it
fails. -/
def Effect (ε σ α : Type) : Type := σ → Except ε α × σ

namespace Effect

variable {ε σ α β : Type}

def lift (x : Except ε α) : Effect ε σ α := fun s => (x, s)

def fail (e : ε) : Effect ε σ α := lift (.error e)

protected def pure (a : α) : Effect ε σ α := lift (.ok a)

protected def bind (x : Effect ε σ α) (f : α → Effect ε σ β) : Effect ε σ β := fun s =>
  match x s with
  | (.ok a, t) => f a t
  | (.error e, t) => (.error e, t)

instance : Monad (Effect ε σ) where
  pure := Effect.pure
  bind := Effect.bind

/-- The outcome of a computation as a value. -/
def attempt (x : Effect ε σ α) : Effect ε σ (Except ε α) := fun s => (.ok (x s).1, (x s).2)

def modify (f : σ → σ) : Effect ε σ PUnit := fun s => (.ok ⟨⟩, f s)

def read (f : σ → α) : Effect ε σ α := fun s => (.ok (f s), s)

section Runs

variable {x : Effect ε σ α} {s t : σ}

@[simp] theorem lift_run_ok {e : Except ε α} {a : α} :
    lift e s = (.ok a, t) ↔ e = .ok a ∧ s = t := by
  simp [lift]

@[simp] theorem pure_run_ok {a b : α} : (pure a : Effect ε σ α) s = (.ok b, t) ↔ a = b ∧ s = t := by
  constructor
  · intro h
    cases h
    exact ⟨rfl, rfl⟩
  · rintro ⟨rfl, rfl⟩
    rfl

@[simp] theorem fail_run_ok {e : ε} {a : α} : (fail e : Effect ε σ α) s ≠ (.ok a, t) := by
  intro h
  cases h

/-- A computation that went through did so one part after the other. -/
@[simp] theorem bind_run_ok {f : α → Effect ε σ β} {b : β} :
    (x >>= f) s = (.ok b, t) ↔ ∃ a r, x s = (.ok a, r) ∧ f a r = (.ok b, t) := by
  change (match x s with | (.ok a, r) => f a r | (.error e, r) => (.error e, r)) = _ ↔ _
  cases hx : x s with
  | mk outcome r =>
    cases outcome with
    | ok a =>
      constructor
      · intro h
        exact ⟨a, r, rfl, h⟩
      · rintro ⟨a', r', hsame, h⟩
        cases hsame
        exact h
    | error e => simp

@[simp] theorem attempt_run_ok {a : Except ε α} :
    attempt x s = (.ok a, t) ↔ x s = (a, t) := by
  cases hx : x s with
  | mk outcome r => simp [attempt, hx]

@[simp] theorem modify_run_ok {f : σ → σ} {u : PUnit} :
    (modify f : Effect ε σ PUnit) s = (.ok u, t) ↔ f s = t := by
  simp [modify]

@[simp] theorem read_run_ok {f : σ → α} {a : α} :
    (read f : Effect ε σ α) s = (.ok a, t) ↔ f s = a ∧ s = t := by
  simp [read]

end Runs

section Reaches

open Relation

variable (T : σ → σ → Prop)

/-- Whatever comes of the computation, the state it leaves is reached by moves of `T`. -/
def Within (x : Effect ε σ α) : Prop := ∀ s, ReflTransGen T s (x s).2

variable {T} {x : Effect ε σ α}

theorem within_lift (e : Except ε α) : (lift e : Effect ε σ α).Within T := fun _ => .refl

theorem within_pure (a : α) : (pure a : Effect ε σ α).Within T := fun _ => .refl

theorem within_modify {f : σ → σ} (h : ∀ s, T s (f s)) :
    (modify f : Effect ε σ PUnit).Within T := fun s => .single (h s)

theorem within_read (f : σ → α) : (read f : Effect ε σ α).Within T := fun _ => .refl

theorem within_of_move (h : ∀ s, T s (x s).2) : x.Within T := fun s => .single (h s)

theorem Within.attempt (h : x.Within T) : x.attempt.Within T := h

theorem Within.bind {f : α → Effect ε σ β} (h : x.Within T) (hf : ∀ a, (f a).Within T) :
    (x >>= f).Within T := by
  intro s
  have hx := h s
  change ReflTransGen T s (match x s with | (.ok a, t) => f a t | (.error e, t) => (.error e, t)).2
  cases hrun : x s with
  | mk outcome t =>
    rw [hrun] at hx
    cases outcome with
    | ok a => exact hx.trans (hf a t)
    | error e => exact hx

theorem Within.ite {c : Prop} [Decidable c] {y : Effect ε σ α} (hx : x.Within T)
    (hy : y.Within T) : (if c then x else y).Within T := by
  split
  · exact hx
  · exact hy

end Reaches

section Along

variable {γ δ : Type}

/-- The second computation does what the first does, and its outcome is that of the first seen through `f`. -/
def Along (f : α → β) (x : Effect ε σ α) (y : Effect ε σ β) : Prop := ∀ s, y s = ((x s).1.map f, (x s).2)

variable {f : α → β} {h : γ → δ} {x : Effect ε σ α} {y : Effect ε σ β}

theorem along_lift {e : Except ε α} {e' : Except ε β} (he : e' = e.map f) : Along f (lift e) (lift e' : Effect ε σ β) := by
  intro s
  rw [he]
  rfl

theorem along_pure (a : α) : Along f (pure a) (pure (f a) : Effect ε σ β) := fun _ => rfl

theorem Along.refl (x : Effect ε σ α) : Along id x x := by
  intro s
  cases hx : x s with
  | mk outcome t => cases outcome <;> rfl

theorem Along.eq {y : Effect ε σ α} (hxy : Along id x y) : y = x := by
  funext s
  rw [hxy s]
  exact (Along.refl x s).symm

theorem Along.bind {u : α → Effect ε σ γ} {v : β → Effect ε σ δ} (hxy : Along f x y)
    (huv : ∀ a, Along h (u a) (v (f a))) : Along h (x >>= u) (y >>= v) := by
  intro s
  change (match y s with | (.ok b, t) => v b t | (.error e, t) => (.error e, t)) =
    ((match x s with | (.ok a, t) => u a t | (.error e, t) => (.error e, t)).1.map h,
      (match x s with | (.ok a, t) => u a t | (.error e, t) => (.error e, t)).2)
  rw [hxy s]
  cases hx : x s with
  | mk outcome t =>
    cases outcome with
    | ok a => exact huv a t
    | error e => rfl

theorem along_bind {z : Effect ε σ β} {u : β → Effect ε σ γ} {v : β → Effect ε σ δ}
    (huv : ∀ b, Along h (u b) (v b)) : Along h (z >>= u) (z >>= v) := (Along.refl z).bind huv

theorem Along.attempt (hxy : Along f x y) : Along (Except.map f) x.attempt y.attempt := by
  intro s
  change (Except.ok (y s).1, (y s).2) = _
  rw [hxy s]
  rfl

end Along

end Effect

end Lib
