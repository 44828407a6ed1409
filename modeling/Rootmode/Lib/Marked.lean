import Rootmode.Lib.Layout
import Rootmode.Lib.Search

namespace Lib.Marked

open Text

section Rows

/-- A letter before the first of some lines. -/
def push (c : Char) : List Text → List Text
  | [] => [[c]]
  | l :: ls => (c :: l) :: ls

/-- The lines of a text, what comes after the last newline being one too. -/
def rows : Text → List Text
  | [] => [[]]
  | c :: t => if c = '\n' then [] :: rows t else push c (rows t)

variable {a b l t : Text} {ls P Q : List Text}

theorem rows_newline : rows ('\n' :: t) = [] :: rows t := if_pos rfl

theorem rows_ne_nil : rows t ≠ [] := by
  cases t with
  | nil => exact List.cons_ne_nil _ _
  | cons c t =>
    rw [rows]
    split
    · exact List.cons_ne_nil _ _
    · unfold push
      split <;> exact List.cons_ne_nil _ _

theorem rows_append : rows (a ++ '\n' :: b) = rows a ++ rows b := by
  induction a with
  | nil => exact rows_newline
  | cons c a ih =>
    rw [List.cons_append, rows, rows, ih]
    split
    · rfl
    · obtain ⟨l, ls, hrows⟩ := List.exists_cons_of_ne_nil (@rows_ne_nil a)
      rw [hrows]
      rfl

theorem rows_line (h : '\n' ∉ l) : rows l = [l] := by
  induction l with
  | nil => rfl
  | cons c l ih =>
    obtain ⟨hc, hl⟩ := not_or.mp (List.mem_cons.not.mp h)
    rw [rows, if_neg (Ne.symm hc), ih hl]
    rfl

/-- The lines of a text stand in it, the first one at its head. -/
theorem rows_within : (∀ l ∈ rows t, l <:+: t) ∧ ∀ l ∈ (rows t).head?, l <+: t := by
  induction t with
  | nil =>
    constructor
    · intro l hl
      obtain rfl := List.mem_singleton.mp hl
      exact List.infix_rfl
    · intro l hl
      cases hl
      exact List.prefix_rfl
  | cons c t ih =>
    obtain ⟨hall, hhead⟩ := ih
    have hlater : ∀ {l}, l <:+: t → l <:+: c :: t := fun h => h.trans (List.suffix_cons c t).isInfix
    rw [rows]
    split
    · refine ⟨List.forall_mem_cons.mpr ⟨List.nil_infix, fun l hl => hlater (hall l hl)⟩, fun l hl => ?_⟩
      cases hl
      exact List.nil_prefix
    · obtain ⟨l, ls, hrows⟩ := List.exists_cons_of_ne_nil (@rows_ne_nil t)
      rw [hrows] at hall hhead ⊢
      have hfirst : c :: l <+: c :: t := List.cons_prefix_cons.mpr ⟨rfl, hhead l rfl⟩
      constructor
      · exact List.forall_mem_cons.mpr ⟨hfirst.isInfix, fun l hl => hlater (hall l (List.mem_cons_of_mem _ hl))⟩
      · intro l hl
        cases hl
        exact hfirst

theorem rows_ended (h : ∀ l ∈ P, '\n' ∉ l) : rows (ended P ++ t) = P ++ rows t := by
  induction P with
  | nil => rfl
  | cons l P ih =>
    obtain ⟨hl, hP⟩ := List.forall_mem_cons.mp h
    rw [ended_cons, List.append_assoc, List.cons_append, rows_append, rows_line hl, ih hP]
    rfl

theorem rows_follow (hl : '\n' ∉ l) (h : ∀ l ∈ Q, '\n' ∉ l) : rows (l ++ follow Q) = l :: Q := by
  induction Q generalizing l with
  | nil => rw [follow, List.flatMap_nil, List.append_nil, rows_line hl]
  | cons q Q ih =>
    obtain ⟨hq, hQ⟩ := List.forall_mem_cons.mp h
    rw [follow_cons, rows_append, rows_line hl, ih hq hQ]
    rfl

end Rows

/-- What begins and what ends a block: two texts of one line, the one not in the other. -/
structure Markers where
  opening : Text
  closing : Text
  opening_ne : opening ≠ []
  closing_ne : closing ≠ []
  opening_line : '\n' ∉ opening
  closing_line : '\n' ∉ closing
  apart : ¬ closing <:+: opening

section Segments

variable (m : Markers)

/-- Some lines before the first of some segments. -/
def lead (ls : List Text) : List (List Text) → List (List Text)
  | [] => [ls]
  | s :: ss => (ls ++ s) :: ss

/-- What stands before, between and after the blocks of some lines: from a line that opens one to the next that
closes one, unless another opens one in between. -/
def segmentsFrom : Option (List Text) → List Text → List (List Text)
  | none, [] => [[]]
  | some body, [] => [m.opening :: body]
  | none, l :: ls => if l = m.opening then segmentsFrom (some []) ls else lead [l] (segmentsFrom none ls)
  | some body, l :: ls =>
    if l = m.closing then [] :: segmentsFrom none ls
    else if l = m.opening then lead (m.opening :: body) (segmentsFrom (some []) ls)
    else segmentsFrom (some (body ++ [l])) ls

def segments (ls : List Text) : List (List Text) := segmentsFrom m none ls

/-- The lines outside of the blocks. -/
def outside (ls : List Text) : List Text := (segments m ls).flatten

/-- How many blocks there are. -/
def blocks (ls : List Text) : ℕ := (segments m ls).length - 1

variable {m} {P B Q body ls : List Text}

theorem Markers.closing_ne_opening (m : Markers) : m.closing ≠ m.opening :=
  fun h => m.apart (h ▸ List.infix_rfl)

theorem segments_free (h : m.opening ∉ ls) : segments m ls = [ls] := by
  unfold segments
  induction ls with
  | nil => rfl
  | cons l ls ih =>
    obtain ⟨hl, hls⟩ := not_or.mp (List.mem_cons.not.mp h)
    rw [segmentsFrom, if_neg (Ne.symm hl), ih hls]
    rfl

theorem segmentsFrom_body (hopening : m.opening ∉ B) (hclosing : m.closing ∉ B) :
    segmentsFrom m (some body) (B ++ m.closing :: ls) = [] :: segments m ls := by
  induction B generalizing body with
  | nil => rw [List.nil_append, segmentsFrom, if_pos rfl, segments]
  | cons l B ih =>
    obtain ⟨hl, hB⟩ := not_or.mp (List.mem_cons.not.mp hopening)
    obtain ⟨hl', hB'⟩ := not_or.mp (List.mem_cons.not.mp hclosing)
    rw [List.cons_append, segmentsFrom, if_neg (Ne.symm hl'), if_neg (Ne.symm hl), ih hB hB']

theorem segments_block (hP : m.opening ∉ P) (hopening : m.opening ∉ B) (hclosing : m.closing ∉ B) (hQ : m.opening ∉ Q) :
    segments m (P ++ m.opening :: (B ++ m.closing :: Q)) = [P, Q] := by
  induction P with
  | nil =>
    rw [List.nil_append, segments, segmentsFrom, if_pos rfl, segmentsFrom_body hopening hclosing, segments_free hQ]
  | cons l P ih =>
    obtain ⟨hl, hP⟩ := not_or.mp (List.mem_cons.not.mp hP)
    rw [segments] at ih
    rw [List.cons_append, segments, segmentsFrom, if_neg (Ne.symm hl), ih hP]
    rfl

end Segments

section Joins

def AllBlank (ls : List Text) : Prop := ∀ l ∈ ls, ∀ c ∈ l, isWhitespace c = true

/-- The lines are those of the segments in their order, but for blank lines before and after each segment. -/
inductive Joins : List (List Text) → List Text → Prop
  | nil {b} (hb : AllBlank b) : Joins [] b
  | cons {b x core y ss L} (hb : AllBlank b) (hx : AllBlank x) (hy : AllBlank y) (h : Joins ss L) :
    Joins ((x ++ (core ++ y)) :: ss) (b ++ (core ++ L))

variable {L M b b' P Q : List Text} {ss : List (List Text)}

theorem allBlank_nil : AllBlank [] := fun _ h => absurd h List.not_mem_nil

theorem allBlank_singleton : AllBlank [[]] := by
  intro l hl c hc
  obtain rfl := List.mem_singleton.mp hl
  cases hc

theorem allBlank_append : AllBlank (L ++ M) ↔ AllBlank L ∧ AllBlank M := List.forall_mem_append

theorem Joins.first (h : Joins ss L) : Joins (P :: ss) (P ++ L) := by
  have hfirst := @Joins.cons [] [] P [] _ _ allBlank_nil allBlank_nil allBlank_nil h
  simpa using hfirst

theorem joins_flatten : Joins ss ss.flatten := by
  induction ss with
  | nil => exact .nil allBlank_nil
  | cons s ss ih => exact ih.first

/-- No line that says something is left out. -/
theorem Joins.mem {l : Text} (h : Joins ss L) (hl : ∃ s ∈ ss, l ∈ s) (hsaid : ¬ ∀ c ∈ l, isWhitespace c = true) : l ∈ L := by
  induction h with
  | nil _ =>
    obtain ⟨s, hs, -⟩ := hl
    cases hs
  | cons _ hx hy _ ih =>
    obtain ⟨s, hs, hl⟩ := hl
    rcases List.mem_cons.mp hs with rfl | hs
    · rcases List.mem_append.mp hl with hl | hl
      · exact absurd (hx l hl) hsaid
      rcases List.mem_append.mp hl with hl | hl
      · exact List.mem_append_right _ (List.mem_append_left _ hl)
      · exact absurd (hy l hl) hsaid
    · exact List.mem_append_right _ (List.mem_append_right _ (ih ⟨s, hs, hl⟩))

/-- Of nothing but blank lines any number will do. -/
theorem Joins.blank (h : Joins ss L) (hL : AllBlank L) (hb : AllBlank b) : Joins ss b := by
  induction h with
  | nil _ => exact .nil hb
  | cons _ hx hy _ ih =>
    obtain ⟨-, hrest⟩ := allBlank_append.mp hL
    obtain ⟨hcore, hrest⟩ := allBlank_append.mp hrest
    have hall := allBlank_append.mpr ⟨hx, allBlank_append.mpr ⟨hcore, hy⟩⟩
    have hjoins := @Joins.cons [] _ [] [] _ _ allBlank_nil hall allBlank_nil (ih hrest)
    simpa using hjoins

/-- The blank lines at the end may change. -/
theorem Joins.resize (h : Joins ss (M ++ b)) (hb : AllBlank b) (hb' : AllBlank b') : Joins ss (M ++ b') := by
  generalize hL : M ++ b = L at h
  induction h generalizing M with
  | nil hall =>
    obtain ⟨hM, -⟩ := allBlank_append.mp (hL ▸ hall)
    exact .nil (allBlank_append.mpr ⟨hM, hb'⟩)
  | @cons b₀ x core y ss L hb₀ hx hy hrest ih =>
    rcases List.append_eq_append_iff.mp hL with ⟨c, rfl, rfl⟩ | ⟨M₁, rfl, hM⟩
    · -- all of it is blank
      obtain ⟨-, hcore⟩ := allBlank_append.mp hb
      obtain ⟨hM, -⟩ := allBlank_append.mp hb₀
      exact (Joins.cons hb₀ hx hy hrest).blank (allBlank_append.mpr ⟨hb₀, hcore⟩) (allBlank_append.mpr ⟨hM, hb'⟩)
    rcases List.append_eq_append_iff.mp hM with ⟨M₂, rfl, rfl⟩ | ⟨c, rfl, rfl⟩
    · have hjoins := @Joins.cons _ _ core _ _ _ hb₀ hx hy (ih rfl)
      simpa using hjoins
    · obtain ⟨hc, hL⟩ := allBlank_append.mp hb
      have hjoins := @Joins.cons _ _ M₁ _ _ _ hb₀ hx (allBlank_append.mpr ⟨hc, hy⟩) (hrest.blank hL hb')
      simpa using hjoins

end Joins

section Trim

variable {t u : Text}

theorem trimEnd_split : ∃ w, t = trimEnd t ++ w ∧ ∀ c ∈ w, isWhitespace c = true := by
  refine ⟨(t.reverse.takeWhile isWhitespace).reverse, ?_, fun c hc => ?_⟩
  · have hsplit := congrArg List.reverse (List.takeWhile_append_dropWhile (p := isWhitespace) (l := t.reverse))
    rw [List.reverse_append, List.reverse_reverse] at hsplit
    exact hsplit.symm
  · exact List.mem_takeWhile_imp (List.mem_reverse.mp hc)

theorem allBlank_rows (h : ∀ c ∈ t, isWhitespace c = true) : AllBlank (rows t) := by
  induction t with
  | nil =>
    intro l hl c hc
    obtain rfl := List.mem_singleton.mp hl
    cases hc
  | cons c t ih =>
    obtain ⟨hc, ht⟩ := List.forall_mem_cons.mp h
    obtain ⟨l, ls, hrows⟩ := List.exists_cons_of_ne_nil (@rows_ne_nil t)
    have hblank := ih ht
    rw [rows]
    split
    · exact List.forall_mem_cons.mpr ⟨fun c hc => absurd hc List.not_mem_nil, hblank⟩
    · rw [hrows] at hblank ⊢
      obtain ⟨hl, hls⟩ := List.forall_mem_cons.mp hblank
      exact List.forall_mem_cons.mpr ⟨List.forall_mem_cons.mpr ⟨hc, hl⟩, hls⟩

/-- What is trimmed off the end of a text begins with a newline. -/
def Tidy (t : Text) : Prop := trimEnd t = [] ∨ ∀ c ∈ (t.drop (trimEnd t).length).head?, c = '\n'

/-- The lines of what is left of a text without the blanks at its end. -/
def body (t : Text) : List Text := if trimEnd t = [] then [] else rows (trimEnd t)

theorem rows_tidy (h : Tidy t) : ∃ b, AllBlank b ∧ rows t = body t ++ b := by
  obtain ⟨w, hw, hblank⟩ := @trimEnd_split t
  unfold body
  split
  · next hnil => exact ⟨rows t, allBlank_rows (trimEnd_eq_nil.mp hnil), rfl⟩
  · next hne =>
    have hfirst := h.resolve_left hne
    have hdrop : t.drop (trimEnd t).length = w := (congrArg (List.drop _) hw).trans List.drop_left
    rw [hdrop] at hfirst
    cases w with
    | nil =>
      refine ⟨[], allBlank_nil, ?_⟩
      rw [List.append_nil] at hw ⊢
      rw [← hw]
    | cons c w =>
      obtain rfl : c = '\n' := hfirst c rfl
      refine ⟨rows w, allBlank_rows (List.forall_mem_cons.mp hblank).2, ?_⟩
      exact (congrArg rows hw).trans rows_append

end Trim

section Find

open Search

variable {needle p rest w l t : Text} {P Q : List Text}

/-- A text of one line, right after lines that do not have it. -/
theorem find_fresh (hne : needle ≠ []) (hline : '\n' ∉ needle)
    (hp : p = [] ∨ ∃ q, p = q ++ ['\n'] ∧ ¬ needle <:+: q) : find needle (p ++ (needle ++ rest)) = some p.length := by
  refine (find_eq_some hne).mpr ⟨?_, fun j hj hat => ?_⟩
  · rw [At, List.drop_left]
    exact List.prefix_append _ _
  · rcases hp with rfl | ⟨q, rfl, hq⟩
    · exact absurd hj (Nat.not_lt_zero j)
    · rw [List.length_append, List.length_singleton] at hj
      rw [List.append_assoc] at hat
      by_cases hbound : j + needle.length ≤ q.length
      · have hinside := hat.of_append hbound
        exact hq (hinside.isInfix.trans (List.drop_suffix j q).isInfix)
      · have hget := hat.getElem? (k := q.length - j) (by omega)
        rw [Nat.add_sub_cancel' (by omega), List.getElem?_append_right le_rfl, Nat.sub_self] at hget
        exact hline (List.mem_of_getElem? hget.symm)

theorem find_absent (hne : needle ≠ []) (h : ¬ needle <:+: t) : find needle t = none :=
  (find_eq_none hne).mpr fun i hat => h (hat.isInfix.trans (List.drop_suffix i t).isInfix)

theorem infix_ended_append (hline : '\n' ∉ w) :
    w <:+: ended P ++ t ↔ (∃ l ∈ P, w <:+: l) ∨ w <:+: t := by
  induction P with
  | nil => simp [ended]
  | cons l P ih =>
    rw [ended_cons, List.append_assoc, List.cons_append, infix_append_cons hline, ih, List.exists_mem_cons_iff, or_assoc]

theorem infix_append_follow (hline : '\n' ∉ w) : w <:+: l ++ follow Q ↔ w <:+: l ∨ ∃ q ∈ Q, w <:+: q := by
  induction Q generalizing l with
  | nil => simp [follow]
  | cons q Q ih => rw [follow_cons, infix_append_cons hline, ih, List.exists_mem_cons_iff]

end Find

end Lib.Marked
