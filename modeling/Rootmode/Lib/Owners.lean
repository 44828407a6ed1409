import Mathlib.Logic.Function.Basic

universe u v

namespace Lib.Owners

open Function

variable {κ : Type u} {ι : Type v} [DecidableEq κ]

/-- A table whose entries each belong to one owner. -/
abbrev Table (κ : Type u) (ι : Type v) := κ → Option ι

def put (m : Table κ ι) (k : κ) (i : ι) : Table κ ι := update m k (some i)

def drop (m : Table κ ι) (k : κ) : Table κ ι := update m k none

/-- Every owner has a right to its key. -/
def Owned (m : Table κ ι) (P : κ → ι → Prop) : Prop := ∀ k i, m k = some i → P k i

/-- The entries of everyone but `i` are kept. -/
def Spares (i : ι) (m m' : Table κ ι) : Prop := ∀ k j, j ≠ i → m k = some j → m' k = some j

/-- No entry is new but that of `i` under `k`. -/
def Only (k : κ) (i : ι) (m m' : Table κ ι) : Prop :=
  ∀ l j, m' l = some j → m l = some j ∨ (l = k ∧ j = i)

variable {m m' : Table κ ι} {P Q : κ → ι → Prop} {k : κ} {i : ι}

@[simp] theorem put_self : put m k i k = some i := by simp [put]

@[simp] theorem drop_self : drop m k k = none := by simp [drop]

theorem put_of_ne {l : κ} (h : l ≠ k) : put m k i l = m l := by simp [put, h]

theorem drop_of_ne {l : κ} (h : l ≠ k) : drop m k l = m l := by simp [drop, h]

omit [DecidableEq κ] in
theorem Owned.mono (h : Owned m P) (hPQ : ∀ k i, P k i → Q k i) : Owned m Q :=
  fun k i hk => hPQ k i (h k i hk)

theorem Owned.put (h : Owned m P) (hPQ : ∀ l j, l ≠ k → P l j → Q l j) (hi : Q k i) :
    Owned (put m k i) Q := by
  intro l j hl
  by_cases hlk : l = k
  · subst hlk
    rw [put_self] at hl
    cases hl
    exact hi
  · rw [put_of_ne hlk] at hl
    exact hPQ l j hlk (h l j hl)

theorem Owned.drop (h : Owned m P) (hPQ : ∀ l j, l ≠ k → P l j → Q l j) : Owned (drop m k) Q := by
  intro l j hl
  by_cases hlk : l = k
  · subst hlk
    simp at hl
  · rw [drop_of_ne hlk] at hl
    exact hPQ l j hlk (h l j hl)

omit [DecidableEq κ] in
theorem Spares.refl (i : ι) (m : Table κ ι) : Spares i m m := fun _ _ _ h => h

theorem Spares.put (h : ∀ j, m k = some j → j = i) : Spares i m (put m k i) := by
  intro l j hj hl
  by_cases hlk : l = k
  · subst hlk
    exact absurd (h j hl) hj
  · rwa [put_of_ne hlk]

theorem Spares.drop (h : ∀ j, m k = some j → j = i) : Spares i m (drop m k) := by
  intro l j hj hl
  by_cases hlk : l = k
  · subst hlk
    exact absurd (h j hl) hj
  · rwa [drop_of_ne hlk]

omit [DecidableEq κ] in
theorem Only.refl : Only k i m m := fun _ _ h => .inl h

theorem Only.put : Only k i m (put m k i) := by
  intro l j h
  by_cases hl : l = k
  · subst hl
    rw [put_self] at h
    cases h
    exact .inr ⟨rfl, rfl⟩
  · rw [put_of_ne hl] at h
    exact .inl h

theorem Only.drop : Only k i m (drop m k) := by
  intro l j h
  by_cases hl : l = k
  · subst hl
    simp at h
  · rw [drop_of_ne hl] at h
    exact .inl h

end Lib.Owners
