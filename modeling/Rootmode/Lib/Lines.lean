import Mathlib.Data.List.Basic

universe u

namespace Lib.Lines

variable {α : Type u} [DecidableEq α] {sep : α}

/-- The lines of a text of which `part` has gone by, a line that nothing ends being one too unless
it is empty. -/
def linesFrom (sep : α) (part : List α) : List α → List (List α)
  | [] => if part = [] then [] else [part]
  | a :: l => if a = sep then part :: linesFrom sep [] l else linesFrom sep (part ++ [a]) l

def lines (sep : α) : List α → List (List α) := linesFrom sep []

/-- The bytes up to the first separator, and what comes after it. -/
def cut (sep : α) : List α → Option (List α × List α)
  | [] => none
  | a :: l => if a = sep then some ([], l) else (cut sep l).map fun (line, rest) => (a :: line, rest)

theorem linesFrom_append {part p : List α} (h : sep ∉ p) (l : List α) :
    linesFrom sep part (p ++ l) = linesFrom sep (part ++ p) l := by
  induction p generalizing part with
  | nil => rw [List.nil_append, List.append_nil]
  | cons a p ih =>
    have ha : a ≠ sep := fun ha => h (ha ▸ List.mem_cons_self)
    have hp : sep ∉ p := fun hp => h (List.mem_cons_of_mem a hp)
    rw [List.cons_append, linesFrom, if_neg ha, ih hp, List.append_assoc, List.singleton_append]

theorem lines_line {p : List α} (h : sep ∉ p) (l : List α) :
    lines sep (p ++ sep :: l) = p :: lines sep l := by
  rw [lines, linesFrom_append h, linesFrom, if_pos rfl, List.nil_append, ← lines]

theorem lines_rest {p : List α} (h : sep ∉ p) (hne : p ≠ []) : lines sep p = [p] := by
  have hrest := @linesFrom_append _ _ sep [] p h []
  rw [List.append_nil, List.nil_append, linesFrom, if_neg hne] at hrest
  exact hrest

theorem lines_nil : lines sep [] = [] := rfl

theorem cut_eq_some {l line rest : List α} (h : cut sep l = some (line, rest)) :
    l = line ++ sep :: rest ∧ sep ∉ line := by
  induction l generalizing line with
  | nil => cases h
  | cons a l ih =>
    rw [cut] at h
    split at h
    · next ha =>
      cases h
      rw [ha]
      exact ⟨rfl, List.not_mem_nil⟩
    · next ha =>
      obtain ⟨⟨line', rest'⟩, hcut, heq⟩ := Option.map_eq_some_iff.mp h
      cases heq
      obtain ⟨hl, hnot⟩ := ih hcut
      refine ⟨congrArg (a :: ·) hl, ?_⟩
      intro hmem
      cases List.mem_cons.mp hmem with
      | inl hsep => exact ha hsep.symm
      | inr hmem => exact hnot hmem

theorem cut_eq_none {l : List α} (h : cut sep l = none) : sep ∉ l := by
  induction l with
  | nil => exact List.not_mem_nil
  | cons a l ih =>
    rw [cut] at h
    split at h
    · cases h
    · next ha =>
      intro hmem
      cases List.mem_cons.mp hmem with
      | inl hsep => exact ha hsep.symm
      | inr hmem => exact ih (Option.map_eq_none_iff.mp h) hmem

section Cut

variable {l l' line rest : List α}

theorem cut_append_of_some (h : cut sep l = some (line, rest)) :
    cut sep (l ++ l') = some (line, rest ++ l') := by
  induction l generalizing line with
  | nil => cases h
  | cons a l ih =>
    rw [cut] at h
    rw [List.cons_append, cut]
    split at h
    · next ha =>
      cases h
      rw [if_pos ha]
    · next ha =>
      obtain ⟨⟨line', rest'⟩, hcut, heq⟩ := Option.map_eq_some_iff.mp h
      cases heq
      rw [if_neg ha, ih hcut]
      rfl

theorem cut_append_of_none (h : cut sep l = none) :
    cut sep (l ++ l') = (cut sep l').map fun (line, rest) => (l ++ line, rest) := by
  induction l with
  | nil =>
    rw [List.nil_append]
    cases cut sep l' <;> rfl
  | cons a l ih =>
    rw [cut] at h
    rw [List.cons_append, cut]
    split at h
    · cases h
    · next ha =>
      rw [if_neg ha, ih (Option.map_eq_none_iff.mp h), Option.map_map]
      rfl

theorem cut_line (h : sep ∉ line) : cut sep (line ++ sep :: rest) = some (line, rest) := by
  induction line with
  | nil => exact if_pos rfl
  | cons a line ih =>
    obtain ⟨ha, hline⟩ := not_or.mp (List.mem_cons.not.mp h)
    rw [List.cons_append, cut, if_neg (Ne.symm ha), ih hline]
    rfl

theorem cut_of_not_mem (h : sep ∉ l) : cut sep l = none := by
  cases hcut : cut sep l with
  | none => rfl
  | some found => exact absurd (by rw [(cut_eq_some hcut).1]; simp) h

end Cut

end Lib.Lines
