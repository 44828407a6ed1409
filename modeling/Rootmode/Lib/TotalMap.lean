import Mathlib.Algebra.BigOperators.Group.Finset.Basic
import Mathlib.Algebra.BigOperators.Group.Finset.Piecewise
import Mathlib.Algebra.Order.BigOperators.Group.Finset
import Mathlib.Data.Fintype.BigOperators

universe u v

namespace Lib.TotalMap

open Finset Function

variable {ι : Type u} [DecidableEq ι] {α : Type v}

/-- `n` taken from key `a` and put on key `b`, in this order. -/
def moved (f : ι → ℕ) (a b : ι) (n : ℕ) : ι → ℕ :=
  let f' := update f a (f a - n)
  update f' b (f' b + n)

theorem moved_from (f : ι → ℕ) {a b : ι} (n : ℕ) (h : a ≠ b) :
    moved f a b n a = f a - n := by
  simp [moved, h]

theorem moved_to (f : ι → ℕ) {a b : ι} (n : ℕ) (h : a ≠ b) :
    moved f a b n b = f b + n := by
  simp [moved, h.symm]

/-- Whoever is paid, the payer is left with at least its balance less the amount. -/
theorem le_moved_from (f : ι → ℕ) (a b : ι) (n : ℕ) : f a - n ≤ moved f a b n a := by
  by_cases h : a = b
  · subst h; simp [moved]
  · rw [moved_from f n h]

variable [Fintype ι]

/-- Changing a map at one key changes a sum over the map by the change at that key. -/
theorem sum_update (g : α → ℕ) (f : ι → α) (i : ι) (a : α) :
    ∑ j, g (update f i a j) + g (f i) = ∑ j, g (f j) + g a := by
  have h : ∀ j, g (update f i a j) = update (fun j => g (f j)) i (g a) j := by
    intro j
    by_cases hj : j = i
    · subst hj; simp
    · simp [hj]
  have hsplit : ∑ j, g (f j) = g (f i) + ∑ j ∈ univ \ {i}, g (f j) := by
    rw [← sum_sdiff (subset_univ {i}), sum_singleton, Nat.add_comm]
  rw [sum_congr rfl (fun j _ => h j), sum_update_of_mem (mem_univ i), hsplit]
  omega

theorem sum_moved (f : ι → ℕ) (a b : ι) {n : ℕ} (h : n ≤ f a) :
    ∑ i, moved f a b n i = ∑ i, f i := by
  have h₁ := sum_update id f a (f a - n)
  have h₂ := sum_update id (update f a (f a - n)) b (update f a (f a - n) b + n)
  simp only [id, moved] at *
  omega

omit [DecidableEq ι] in
theorem le_sum (f : ι → ℕ) (i : ι) : f i ≤ ∑ j, f j :=
  single_le_sum (fun _ _ => Nat.zero_le _) (mem_univ i)

end Lib.TotalMap
