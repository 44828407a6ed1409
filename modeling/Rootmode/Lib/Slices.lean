import Mathlib.Algebra.BigOperators.Group.List.Basic
import Mathlib.Algebra.GroupWithZero.Nat
import Mathlib.Order.Interval.Finset.Nat

namespace Lib

/-- The numbers above `lo` and up to `hi`. -/
structure Slice where
  lo : ℕ
  hi : ℕ
  deriving DecidableEq

namespace Slice

def size (s : Slice) : ℕ := s.hi - s.lo

def numbers (s : Slice) : Finset ℕ := Finset.Ioc s.lo s.hi

/-- One of the two ends before the other begins. -/
def Apart (s t : Slice) : Prop := s.hi ≤ t.lo ∨ t.hi ≤ s.lo

instance (s t : Slice) : Decidable (s.Apart t) := inferInstanceAs (Decidable (_ ∨ _))

@[simp] theorem card_numbers (s : Slice) : s.numbers.card = s.size := Nat.card_Ioc _ _

theorem Apart.symm {s t : Slice} (h : s.Apart t) : t.Apart s := Or.symm h

theorem Apart.disjoint {s t : Slice} (h : s.Apart t) : Disjoint s.numbers t.numbers := by
  rw [Finset.disjoint_left]
  intro x hs ht
  have hs := Finset.mem_Ioc.mp hs
  have ht := Finset.mem_Ioc.mp ht
  cases h with
  | inl h => exact absurd (hs.2.trans h) (not_le.mpr ht.1)
  | inr h => exact absurd (ht.2.trans h) (not_le.mpr hs.1)

theorem numbers_subset {s : Slice} {a b : ℕ} (hlo : a ≤ s.lo) (hhi : s.hi ≤ b) :
    s.numbers ⊆ Finset.Ioc a b := Finset.Ioc_subset_Ioc hlo hhi

variable {L : List Slice}

/-- Slices that lie apart take no more room than any set that holds them all. -/
theorem sum_size_le_card {U : Finset ℕ} (hapart : L.Pairwise Apart)
    (hsub : ∀ s ∈ L, s.numbers ⊆ U) : (L.map size).sum ≤ U.card := by
  induction L generalizing U with
  | nil => exact Nat.zero_le _
  | cons s L ih =>
    obtain ⟨hhead, htail⟩ := List.pairwise_cons.mp hapart
    have hs : s.numbers ⊆ U := hsub s List.mem_cons_self
    have hrest : (L.map size).sum ≤ (U \ s.numbers).card := by
      apply ih htail
      intro t ht
      exact Finset.subset_sdiff.mpr ⟨hsub t (List.mem_cons_of_mem s ht), (hhead t ht).disjoint.symm⟩
    have hsplit := Finset.card_sdiff_add_card_eq_card hs
    rw [card_numbers] at hsplit
    rw [List.map_cons, List.sum_cons, ← hsplit, add_comm]
    exact Nat.add_le_add_right hrest _

/-- Slices that lie apart between two bounds add up to no more than the way between them. -/
theorem sum_size_le {a b : ℕ} (hapart : L.Pairwise Apart)
    (hwithin : ∀ s ∈ L, a ≤ s.lo ∧ s.hi ≤ b) : (L.map size).sum ≤ b - a := by
  rw [← Nat.card_Ioc]
  apply sum_size_le_card hapart
  intro s hs
  exact numbers_subset (hwithin s hs).1 (hwithin s hs).2

end Slice

end Lib
