import Mathlib.Data.List.Basic

universe u v

namespace Lib.Table

variable {ρ : Type u} {κ : Type v} [DecidableEq κ] (key : ρ → κ)

/-- A row takes the place of the row with its key, at the end. -/
def put (row : ρ) (rows : List ρ) : List ρ := rows.filter (fun r => key r ≠ key row) ++ [row]

variable {key} {row r : ρ} {rows : List ρ}

theorem mem_put : r ∈ put key row rows ↔ (r ∈ rows ∧ key r ≠ key row) ∨ r = row := by
  simp [put]

theorem mem_put_self : row ∈ put key row rows := mem_put.mpr (.inr rfl)

theorem mem_put_of_ne (h : r ∈ rows) (hne : key r ≠ key row) : r ∈ put key row rows :=
  mem_put.mpr (.inl ⟨h, hne⟩)

theorem mem_of_mem_put (h : r ∈ put key row rows) (hne : r ≠ row) : r ∈ rows := by
  rcases mem_put.mp h with ⟨hold, -⟩ | hnew
  · exact hold
  · exact absurd hnew hne

/-- A row of a table that took several rows is one of them or was there before. -/
theorem mem_of_mem_foldl_put {new : List ρ} (h : r ∈ new.foldl (fun rows row => put key row rows) rows) :
    r ∈ rows ∨ r ∈ new := by
  induction new generalizing rows with
  | nil => exact .inl h
  | cons row new ih =>
    rcases ih h with hput | hnew
    · rcases mem_put.mp hput with ⟨hold, -⟩ | rfl
      · exact .inl hold
      · exact .inr (.head _)
    · exact .inr (.tail _ hnew)

/-- A row stays while none but itself takes its place. -/
theorem mem_foldl_put_of_same {new : List ρ} (h : r ∈ rows) (hsame : ∀ n ∈ new, key n = key r → n = r) :
    r ∈ new.foldl (fun rows row => put key row rows) rows := by
  induction new generalizing rows with
  | nil => exact h
  | cons row new ih =>
    apply ih _ fun n hn => hsame n (.tail _ hn)
    by_cases hkey : key row = key r
    · exact hsame row (.head _) hkey ▸ mem_put_self
    · exact mem_put_of_ne h fun heq => hkey heq.symm

end Lib.Table
