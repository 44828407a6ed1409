import Mathlib.Data.List.Range

universe u

namespace Lib

/-- What an event of a stream is about. -/
inductive Mark (κ : Type u)
  | opens (k : κ)
  | inside (k : κ)
  | closes (k : κ)
  | ends
  | other
  deriving DecidableEq

namespace Mark

variable {κ : Type u}

def key : Mark κ → Option κ
  | opens k | inside k | closes k => some k
  | ends | other => none

/-- A block is opened once, before all else of it, and closed once, after all else of it. -/
def Framed (k : κ) (ms : List (Mark κ)) : Prop :=
  ∃ before within after, ms = before ++ opens k :: (within ++ closes k :: after) ∧
    (∀ m ∈ before, m.key ≠ some k) ∧ (∀ m ∈ within, m.key = some k → m = inside k) ∧
    ∀ m ∈ after, m.key ≠ some k

def AllFramed (ms : List (Mark κ)) : Prop := ∀ m ∈ ms, ∀ k, m.key = some k → Framed k ms

/-- A block as it is opened. -/
def opened : Mark κ → Option κ
  | opens k => some k
  | _ => none

structure WellFormed (ms : List (Mark ℕ)) : Prop where
  framed : AllFramed ms
  indices : ∃ n, ms.filterMap opened = List.range n
  ended : ∃ init, ms = init ++ [ends] ∧ ends ∉ init

/-- The blocks from one index to another, each closed before the next is opened. -/
inductive Blocks : ℕ → ℕ → List (Mark ℕ) → Prop
  | nil (i : ℕ) : Blocks i i []
  | skip {i j : ℕ} {ms : List (Mark ℕ)} (h : Blocks i j ms) : Blocks i j (other :: ms)
  | block {i j : ℕ} {within ms : List (Mark ℕ)} (hwithin : ∀ m ∈ within, m = inside i ∨ m = other)
    (h : Blocks (i + 1) j ms) : Blocks i j (opens i :: (within ++ closes i :: ms))

/-- One block, whatever there is in it. -/
theorem blocks_one (i : ℕ) (within : List (Mark ℕ)) (h : ∀ m ∈ within, m = inside i ∨ m = other) :
    Blocks i (i + 1) (opens i :: (within ++ [closes i])) := .block h (.nil _)

namespace Blocks

variable {i j k : ℕ} {ms ms' : List (Mark ℕ)}

theorem le (h : Blocks i j ms) : i ≤ j := by
  induction h with
  | nil i => exact le_refl i
  | skip _ ih => exact ih
  | block _ _ ih => omega

theorem append (h : Blocks i j ms) (h' : Blocks j k ms') : Blocks i k (ms ++ ms') := by
  induction h with
  | nil i => exact h'
  | skip _ ih => exact .skip (ih h')
  | block hwithin _ ih =>
    simpa using Blocks.block hwithin (ih h')

theorem mem_key (h : Blocks i j ms) : ∀ m ∈ ms, ∀ k, m.key = some k → i ≤ k ∧ k < j := by
  induction h with
  | nil i => exact fun m hm => absurd hm List.not_mem_nil
  | skip _ ih =>
    intro m hm k hk
    rcases List.mem_cons.mp hm with rfl | hm
    · cases hk
    · exact ih m hm k hk
  | @block i j within ms hwithin h ih =>
    have hij := h.le
    intro m hm k hk
    rcases List.mem_cons.mp hm with rfl | hm
    · cases hk
      omega
    · rcases List.mem_append.mp hm with hm | hm
      · rcases hwithin m hm with rfl | rfl
        · cases hk
          omega
        · cases hk
      · rcases List.mem_cons.mp hm with rfl | hm
        · cases hk
          omega
        · have := ih m hm k hk
          omega

theorem ends_notMem (h : Blocks i j ms) : ends ∉ ms := by
  induction h with
  | nil i => exact List.not_mem_nil
  | skip _ ih =>
    intro hm
    rcases List.mem_cons.mp hm with h | hm
    · cases h
    · exact ih hm
  | block hwithin _ ih =>
    intro hm
    rcases List.mem_cons.mp hm with h | hm
    · cases h
    · rcases List.mem_append.mp hm with hm | hm
      · rcases hwithin _ hm with h | h <;> cases h
      · rcases List.mem_cons.mp hm with h | hm
        · cases h
        · exact ih hm

theorem opened_eq (h : Blocks i j ms) : ms.filterMap opened = List.range' i (j - i) := by
  induction h with
  | nil i => simp
  | skip _ ih => exact ih
  | @block i j within ms hwithin h ih =>
    have hij := h.le
    have hnone : within.filterMap opened = [] := by
      rw [List.filterMap_eq_nil_iff]
      intro m hm
      rcases hwithin m hm with rfl | rfl <;> rfl
    have hsize : j - i = (j - (i + 1)) + 1 := by omega
    rw [List.filterMap_cons, List.filterMap_append, hnone, List.filterMap_cons, hsize, List.range'_succ]
    exact congrArg (i :: ·) ih

theorem framed (h : Blocks i j ms) : ∀ k, i ≤ k → k < j → Framed k ms := by
  induction h with
  | nil i => intro k hi hj; omega
  | skip _ ih =>
    intro k hi hj
    obtain ⟨before, within, after, rfl, hbefore, hrest⟩ := ih k hi hj
    refine ⟨other :: before, within, after, rfl, ?_, hrest⟩
    intro m hm hkey
    rcases List.mem_cons.mp hm with rfl | hm
    · cases hkey
    · exact hbefore m hm hkey
  | @block i j inner ms hinner h ih =>
    intro k hi hj
    by_cases hk : k = i
    · subst hk
      refine ⟨[], inner, ms, rfl, fun m hm => absurd hm List.not_mem_nil, ?_, ?_⟩
      · intro m hm hkey
        rcases hinner m hm with rfl | rfl
        · rfl
        · cases hkey
      · intro m hm hkey
        have := h.mem_key m hm k hkey
        omega
    · obtain ⟨before, within, after, rfl, hbefore, hrest⟩ := ih k (by omega) hj
      refine ⟨opens i :: (inner ++ closes i :: before), within, after, by simp, ?_, hrest⟩
      intro m hm hkey
      rcases List.mem_cons.mp hm with rfl | hm
      · exact hk (Option.some.inj hkey).symm
      · rcases List.mem_append.mp hm with hm | hm
        · rcases hinner m hm with rfl | rfl
          · exact hk (Option.some.inj hkey).symm
          · cases hkey
        · rcases List.mem_cons.mp hm with rfl | hm
          · exact hk (Option.some.inj hkey).symm
          · exact hbefore m hm hkey

theorem wellFormed {n : ℕ} (h : Blocks 0 n ms) : WellFormed (ms ++ [ends]) where
  framed := by
    intro m hm k hkey
    rcases List.mem_append.mp hm with hm | hm
    · obtain ⟨hi, hj⟩ := h.mem_key m hm k hkey
      obtain ⟨before, within, after, rfl, hbefore, hwithin, hafter⟩ := h.framed k hi hj
      refine ⟨before, within, after ++ [ends], by simp, hbefore, hwithin, ?_⟩
      intro m hm hkey
      rcases List.mem_append.mp hm with hm | hm
      · exact hafter m hm hkey
      · rw [List.mem_singleton.mp hm] at hkey
        cases hkey
    · rw [List.mem_singleton.mp hm] at hkey
      cases hkey
  indices := by
    refine ⟨n, ?_⟩
    rw [List.filterMap_append, h.opened_eq, Nat.sub_zero, List.range_eq_range']
    exact List.append_nil _
  ended := ⟨ms, rfl, h.ends_notMem⟩

end Blocks

/-- Marks that no block is opened by. -/
theorem blocks_of_other {ms : List (Mark ℕ)} (h : ∀ m ∈ ms, m = other) (i : ℕ) : Blocks i i ms := by
  induction ms with
  | nil => exact .nil i
  | cons m ms ih =>
    rw [h m (.head _)]
    exact .skip (ih fun m hm => h m (.tail _ hm))

theorem allFramed_of_other {ms : List (Mark κ)} (h : ∀ m ∈ ms, m.key = none) : AllFramed ms := by
  intro m hm k hkey
  rw [h m hm] at hkey
  cases hkey

/-- A block that is all there is. -/
theorem allFramed_one {k : κ} {before within after : List (Mark κ)} (hbefore : ∀ m ∈ before, m.key = none)
    (hwithin : ∀ m ∈ within, m = inside k ∨ m.key = none) (hafter : ∀ m ∈ after, m.key = none) :
    AllFramed (before ++ opens k :: (within ++ closes k :: after)) := by
  have hk : Framed k (before ++ opens k :: (within ++ closes k :: after)) := by
    refine ⟨before, within, after, rfl, ?_, ?_, ?_⟩
    · intro m hm hkey
      rw [hbefore m hm] at hkey
      cases hkey
    · intro m hm hkey
      rcases hwithin m hm with h | h
      · exact h
      · rw [h] at hkey
        cases hkey
    · intro m hm hkey
      rw [hafter m hm] at hkey
      cases hkey
  intro m hm k' hkey
  have hsame : k' = k := by
    rcases List.mem_append.mp hm with hm | hm
    · rw [hbefore m hm] at hkey
      cases hkey
    · rcases List.mem_cons.mp hm with rfl | hm
      · exact (Option.some.inj hkey).symm
      · rcases List.mem_append.mp hm with hm | hm
        · rcases hwithin m hm with rfl | h
          · exact (Option.some.inj hkey).symm
          · rw [h] at hkey
            cases hkey
        · rcases List.mem_cons.mp hm with rfl | hm
          · exact (Option.some.inj hkey).symm
          · rw [hafter m hm] at hkey
            cases hkey
  exact hsame ▸ hk

/-- A block that is opened and never closed. -/
theorem not_framed {k : κ} {ms : List (Mark κ)} (h : closes k ∉ ms) : ¬ Framed k ms := by
  rintro ⟨before, within, after, rfl, -⟩
  exact h (by simp)

end Mark

end Lib
