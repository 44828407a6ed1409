import Mathlib.Algebra.Order.Round
import Mathlib.Tactic.Linarith

namespace Lib.Rounding

open Int

variable {𝕜 : Type*} [Field 𝕜] [LinearOrder 𝕜] [IsStrictOrderedRing 𝕜] [FloorRing 𝕜] {x y z : 𝕜}

theorem round_eq_floor (h : fract z < 1 / 2) : round z = ⌊z⌋ := by
  rw [round_eq_iff]
  have hz := floor_add_fract z
  have hnonneg := fract_nonneg z
  constructor <;> linarith

theorem round_eq_floor_add_one (h : 1 / 2 ≤ fract z) : round z = ⌊z⌋ + 1 := by
  rw [round_eq_iff]
  have hz := floor_add_fract z
  have hlt := fract_lt_one z
  push_cast
  constructor <;> linarith

theorem round_le_ceil (z : 𝕜) : round z ≤ ⌈z⌉ := by
  rw [round_eq, ← Int.lt_add_one_iff, floor_lt]
  have hle := le_ceil z
  push_cast
  linarith

theorem sub_round_lt_half (z : 𝕜) : z - round z < 1 / 2 := by
  have hmem := round_eq_iff.mp (rfl : round z = round z)
  have hlt := hmem.2
  linarith

/-- The sum of two amounts, rounded to the nearest, still pays for the first one rounded up and the
second. -/
def Keeps (x y : 𝕜) : Prop :=
  fract x = 0 ∧ fract (x + y) = 0 ∨ 1 / 2 ≤ fract (x + y) ∧ fract (x + y) + (⌈x⌉ - x) ≤ 1

/-- The sum, rounded to the nearest, pays for the first rounded down and the second. -/
def KeepsFloor (x y : 𝕜) : Prop := 1 / 2 ≤ fract (x + y) ∨ fract (x + y) ≤ fract x

theorem ceil_add_le_round : (⌈x⌉ : 𝕜) + y ≤ round (x + y) ↔ Keeps x y := by
  have hz := floor_add_fract (x + y)
  have hceil := le_ceil x
  by_cases hhalf : fract (x + y) < 1 / 2
  · -- the sum is rounded down, so there is nothing to lose
    have hnonneg := fract_nonneg (x + y)
    rw [round_eq_floor hhalf]
    constructor
    · intro h
      refine .inl ⟨?_, by linarith⟩
      have hx : (⌈x⌉ : 𝕜) = x := by linarith
      rw [← hx, fract_intCast]
    · rintro (⟨hx, hzero⟩ | ⟨hge, -⟩)
      · obtain ⟨n, hn⟩ := fract_eq_zero_iff.mp hx
        have hceil' : (⌈x⌉ : 𝕜) = x := by rw [← hn, ceil_intCast]
        linarith
      · linarith
  · have hge := not_lt.mp hhalf
    rw [round_eq_floor_add_one hge]
    push_cast
    constructor
    · intro h
      exact .inr ⟨hge, by linarith⟩
    · rintro (⟨-, hzero⟩ | ⟨-, hle⟩)
      · linarith
      · linarith

theorem floor_add_le_round : (⌊x⌋ : 𝕜) + y ≤ round (x + y) ↔ KeepsFloor x y := by
  have hx := floor_add_fract x
  have hz := floor_add_fract (x + y)
  have hlt := fract_lt_one (x + y)
  have hnonneg := fract_nonneg x
  by_cases hhalf : fract (x + y) < 1 / 2
  · rw [round_eq_floor hhalf]
    constructor
    · intro h
      exact .inr (by linarith)
    · rintro (hge | hle)
      · linarith
      · linarith
  · have hge := not_lt.mp hhalf
    rw [round_eq_floor_add_one hge]
    push_cast
    exact ⟨fun _ => .inl hge, fun _ => by linarith⟩

end Lib.Rounding
