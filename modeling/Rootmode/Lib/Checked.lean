import Mathlib.Algebra.Group.Nat.Defs
import Mathlib.Data.Nat.Basic

universe u v

namespace Lib.Checked

variable {ε : Type u} {α β : Type v}

@[simp] theorem bind_eq_ok (x : Except ε α) (f : α → Except ε β) (b : β) :
    (x >>= f) = .ok b ↔ ∃ a, x = .ok a ∧ f a = .ok b := by
  cases x with
  | error e => constructor <;> intro h <;> simp [bind, Except.bind] at h
  | ok a =>
    constructor
    · intro h
      exact ⟨a, rfl, h⟩
    · rintro ⟨a', ha, h⟩
      cases ha
      exact h

/-- Stop with `e` unless `c` holds. -/
def require (c : Prop) [Decidable c] (e : ε) : Except ε PUnit.{v + 1} :=
  if c then .ok ⟨⟩ else .error e

@[simp] theorem require_eq_ok (c : Prop) [Decidable c] (e : ε) (u : PUnit) :
    require c e = .ok u ↔ c := by
  unfold require
  by_cases h : c
  · simp [h]
  · simp [h]

/-- The value of an option, or stop with `e`. -/
def demand (o : Option β) (e : ε) : Except ε β :=
  match o with
  | some b => .ok b
  | none => .error e

@[simp] theorem demand_eq_ok (o : Option β) (e : ε) (b : β) : demand o e = .ok b ↔ o = some b := by
  cases o with
  | none => simp [demand]
  | some a => simp [demand]

@[simp] theorem mapError_eq_ok {δ : Type u} (f : ε → δ) (x : Except ε β) (b : β) :
    x.mapError f = .ok b ↔ x = .ok b := by
  cases x with
  | error e => simp [Except.mapError]
  | ok a => simp [Except.mapError]

@[simp] theorem map_eq_ok {γ : Type v} (f : β → γ) (x : Except ε β) (c : γ) :
    x.map f = .ok c ↔ ∃ b, x = .ok b ∧ f b = c := by
  cases x with
  | error e => simp [Except.map]
  | ok a => simp [Except.map]

/-- Unsigned addition of width `w` that stops with `e` instead of wrapping. -/
def add (w : Nat) (e : ε) (a b : Nat) : Except ε Nat :=
  if a + b < 2 ^ w then .ok (a + b) else .error e

def mul (w : Nat) (e : ε) (a b : Nat) : Except ε Nat :=
  if a * b < 2 ^ w then .ok (a * b) else .error e

def sub (e : ε) (a b : Nat) : Except ε Nat :=
  if b ≤ a then .ok (a - b) else .error e

/-- Narrowing to width `w`. -/
def narrow (w : Nat) (e : ε) (a : Nat) : Except ε Nat :=
  if a < 2 ^ w then .ok a else .error e

@[simp] theorem add_eq_ok (w : Nat) (e : ε) (a b c : Nat) :
    add w e a b = .ok c ↔ a + b < 2 ^ w ∧ a + b = c := by
  unfold add
  by_cases h : a + b < 2 ^ w
  · simp [h]
  · simp [h]

@[simp] theorem mul_eq_ok (w : Nat) (e : ε) (a b c : Nat) :
    mul w e a b = .ok c ↔ a * b < 2 ^ w ∧ a * b = c := by
  unfold mul
  by_cases h : a * b < 2 ^ w
  · simp [h]
  · simp [h]

@[simp] theorem sub_eq_ok (e : ε) (a b c : Nat) :
    sub e a b = .ok c ↔ b ≤ a ∧ a - b = c := by
  unfold sub
  by_cases h : b ≤ a
  · simp [h]
  · simp [h]

@[simp] theorem narrow_eq_ok (w : Nat) (e : ε) (a c : Nat) :
    narrow w e a = .ok c ↔ a < 2 ^ w ∧ a = c := by
  unfold narrow
  by_cases h : a < 2 ^ w
  · simp [h]
  · simp [h]

/-- Unsigned addition of width `w` that stays at the largest value. -/
def satAdd (w a b : Nat) : Nat := min (a + b) (2 ^ w - 1)

theorem satAdd_lt (w a b : Nat) : satAdd w a b < 2 ^ w := by
  have := Nat.two_pow_pos w
  unfold satAdd
  omega

theorem le_satAdd {w a : Nat} (h : a < 2 ^ w) (b : Nat) : a ≤ satAdd w a b := by
  unfold satAdd
  omega

theorem satAdd_of_lt {w a b : Nat} (h : a + b < 2 ^ w) : satAdd w a b = a + b := by
  unfold satAdd
  omega

end Lib.Checked
