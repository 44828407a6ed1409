import Rootmode.Lib.Layout

namespace Lib.Text

variable {a b l part t : Text} {ls ls' : List Text}

/-- The lines that a line comes back as once it is written and ended. -/
def reread (l : Text) : List Text := lines (l ++ ['\n'])

def relines (ls : List Text) : List Text := ls.flatMap reread

/-- A line that comes back as it is. -/
structure Clean (l : Text) : Prop where
  single : '\n' ∉ l
  chomp_eq : chomp l = l

theorem linesFrom_end (part a b : Text) :
    linesFrom part (a ++ '\n' :: b) = linesFrom part (a ++ ['\n']) ++ lines b := by
  induction a generalizing part with
  | nil =>
    rw [List.nil_append, List.nil_append, linesFrom, if_pos rfl, linesFrom, if_pos rfl, linesFrom, if_pos rfl]
    rfl
  | cons c a ih =>
    rw [List.cons_append, List.cons_append, linesFrom, linesFrom]
    split
    · rw [ih, List.cons_append]
    · rw [ih]

theorem lines_end (a b : Text) : lines (a ++ '\n' :: b) = reread a ++ lines b := linesFrom_end [] a b

theorem lines_ended (ls : List Text) : lines (ended ls) = relines ls := by
  induction ls with
  | nil => rfl
  | cons l ls ih =>
    rw [ended_cons, lines_end, ih]
    rfl

theorem reread_single (h : '\n' ∉ l) : reread l = [chomp l] := by
  rw [reread, lines, linesFrom_append h, List.nil_append, linesFrom, if_pos rfl, linesFrom, if_pos rfl]

theorem Clean.reread (h : Clean l) : reread l = [l] := by
  rw [reread_single h.single, h.chomp_eq]

theorem relines_append : relines (ls ++ ls') = relines ls ++ relines ls' := List.flatMap_append

theorem relines_cons : relines (l :: ls) = reread l ++ relines ls := List.flatMap_cons

theorem relines_clean (h : ∀ l ∈ ls, Clean l) : relines ls = ls := by
  induction ls with
  | nil => rfl
  | cons l ls ih =>
    obtain ⟨hl, hls⟩ := List.forall_mem_cons.mp h
    rw [relines_cons, hl.reread, ih hls]
    rfl

theorem clean_of_not_mem (hline : '\n' ∉ l) (hreturn : '\r' ∉ l) : Clean l := by
  refine ⟨hline, ?_⟩
  rcases chomp_cases l with hsame | hcut
  · exact hsame
  · rw [hcut] at hreturn
    exact absurd (List.mem_append_right _ (List.mem_singleton_self _)) hreturn

theorem clean_of_getLast? {c : Char} (hline : '\n' ∉ l) (hlast : l.getLast? = some c) (hc : c ≠ '\r') : Clean l := by
  refine ⟨hline, if_neg ?_⟩
  rw [hlast]
  exact fun heq => hc (Option.some.inj heq)

/-- A line with a break in it comes back as the line before the break and the lines after it. -/
theorem reread_break (h : '\n' ∉ a) : reread (a ++ '\n' :: b) = chomp a :: reread b := by
  rw [reread, List.append_assoc, List.cons_append, lines_end, reread_single h]
  rfl

end Lib.Text
