import Mathlib.Data.List.DropRight
import Mathlib.Data.List.Infix

universe u

namespace Lib

variable {α : Type u}

/-- The words of a text: its longest runs of what words are made of. -/
def words (inWord : α → Bool) (t : List α) : List (List α) :=
  (t.splitOnP fun c => !inWord c).filter fun w => !w.isEmpty

namespace Words

variable {inWord : α → Bool} {t x y w : List α} {ws l r : List (List α)} {c : α}

def IsWord (inWord : α → Bool) (w : List α) : Prop := w ≠ [] ∧ ∀ c ∈ w, inWord c = true

/-- A text that goes on no word before it. -/
def Opens (inWord : α → Bool) (t : List α) : Prop := ∀ c ∈ t.head?, inWord c = false

/-- A text that no word after it goes on with. -/
def Closes (inWord : α → Bool) (t : List α) : Prop := ∀ c ∈ t.getLast?, inWord c = false

@[simp] theorem words_nil : words inWord [] = [] := by simp [words]

theorem words_append_cons (hc : inWord c = false) : words inWord (x ++ c :: y) = words inWord x ++ words inWord y := by
  rw [words, List.splitOnP_append_cons x y (by simp [hc]), List.filter_append]
  rfl

theorem words_of_forall (h : ∀ c ∈ w, inWord c = true) : words inWord w = if w = [] then [] else [w] := by
  rw [words, List.splitOnP_eq_singleton fun c hc => by simp [h c hc]]
  cases w <;> simp

theorem IsWord.words (h : IsWord inWord w) : Lib.words inWord w = [w] := by
  rw [words_of_forall h.2, if_neg h.1]

theorem words_append_of_closes (h : Closes inWord x) : words inWord (x ++ y) = words inWord x ++ words inWord y := by
  rcases x.eq_nil_or_concat with rfl | ⟨x', c, rfl⟩
  · simp
  · have hc : inWord c = false := h c (by simp)
    rw [List.concat_eq_append, List.append_assoc, List.singleton_append, words_append_cons hc, words_append_cons hc,
      words_nil, List.append_nil]

theorem words_append_of_opens (h : Opens inWord y) : words inWord (x ++ y) = words inWord x ++ words inWord y := by
  cases y with
  | nil => simp
  | cons c y =>
    have hc : inWord c = false := h c rfl
    have hy := words_append_cons (x := []) (y := y) hc
    rw [words_nil, List.nil_append, List.nil_append] at hy
    rw [words_append_cons hc, hy]

/-- A word between what closes and what opens is one of the words. -/
theorem words_mid (hx : Closes inWord x) (hw : IsWord inWord w) (hy : Opens inWord y) :
    words inWord (x ++ (w ++ y)) = words inWord x ++ w :: words inWord y := by
  rw [words_append_of_closes hx, words_append_of_opens hy, hw.words, List.singleton_append]

/-- A text cut within a word: what comes before the word, its two parts and what comes after. -/
theorem closes_rdropWhile (x : List α) : Closes inWord (x.rdropWhile inWord) := by
  intro c hc
  obtain ⟨hne, rfl⟩ := List.mem_getLast?_eq_getLast hc
  simpa using List.rdropWhile_last_not inWord x hne

theorem opens_dropWhile (y : List α) : Opens inWord (y.dropWhile inWord) := by
  intro c hc
  have h := List.head?_dropWhile_not inWord y
  rw [Option.mem_def.mp hc] at h
  simpa using h

theorem words_eq_before (x : List α) : words inWord x =
    words inWord (x.rdropWhile inWord) ++ words inWord (x.rtakeWhile inWord) := by
  conv_lhs => rw [← List.rdropWhile_append_rtakeWhile (p := inWord) (l := x)]
  exact words_append_of_closes (closes_rdropWhile x)

theorem words_eq_after (y : List α) : words inWord y =
    words inWord (y.takeWhile inWord) ++ words inWord (y.dropWhile inWord) := by
  conv_lhs => rw [← List.takeWhile_append_dropWhile (p := inWord) (l := y)]
  exact words_append_of_opens (opens_dropWhile y)

theorem of_mem_splitOnP {p : α → Bool} (h : w ∈ t.splitOnP p) : ∀ c ∈ w, p c = false := by
  induction t generalizing w with
  | nil =>
    rw [List.splitOnP_nil, List.mem_singleton] at h
    simp [h]
  | cons a t ih =>
    rw [List.splitOnP_cons_eq_if_modifyHead] at h
    split at h
    · rcases List.mem_cons.mp h with rfl | hrest
      · simp
      · exact ih hrest
    · next ha =>
      obtain ⟨first, rest, hsplit⟩ := List.exists_cons_of_ne_nil (List.splitOnP_ne_nil p t)
      rw [hsplit] at h ih
      rcases List.mem_cons.mp h with rfl | hrest
      · intro c hc
        rcases List.mem_cons.mp hc with rfl | hfirst
        · simpa using ha
        · exact ih (.head _) c hfirst
      · exact ih (.tail _ hrest)

theorem isWord_of_mem (h : w ∈ words inWord t) : IsWord inWord w := by
  obtain ⟨hsplit, hne⟩ := List.mem_filter.mp h
  refine ⟨by simpa using hne, fun c hc => ?_⟩
  simpa using of_mem_splitOnP hsplit c hc

/-- A text that begins with part of a word begins with a word that begins so. -/
theorem words_leading (h : IsWord inWord w) (y : List α) :
    words inWord (w ++ y) = (w ++ y.takeWhile inWord) :: words inWord (y.dropWhile inWord) := by
  have hword : IsWord inWord (w ++ y.takeWhile inWord) := by
    refine ⟨by simp [h.1], fun c hc => ?_⟩
    rcases List.mem_append.mp hc with hw | hy
    · exact h.2 c hw
    · exact List.mem_takeWhile_imp hy
  have hmid := words_mid (x := []) (by simp [Closes]) hword (opens_dropWhile y)
  rw [List.nil_append, words_nil, List.nil_append, List.append_assoc, List.takeWhile_append_dropWhile] at hmid
  exact hmid

theorem words_suffix (h : IsWord inWord w) (x : List α) :
    words inWord (x ++ w) = words inWord (x.rdropWhile inWord) ++ [x.rtakeWhile inWord ++ w] := by
  have hword : IsWord inWord (x.rtakeWhile inWord ++ w) := by
    refine ⟨by simp [h.1], fun c hc => ?_⟩
    rcases List.mem_append.mp hc with hx | hw
    · exact List.mem_rtakeWhile_imp hx
    · exact h.2 c hw
  have hmid := words_mid (y := []) (closes_rdropWhile x) hword (by simp [Opens])
  rw [List.append_nil, ← List.append_assoc, List.rdropWhile_append_rtakeWhile, words_nil] at hmid
  exact hmid

/-- What is between words does not count. -/
theorem words_dropWhile {p : α → Bool} (hp : ∀ c, p c = true → inWord c = false) (y : List α) :
    words inWord (y.dropWhile p) = words inWord y := by
  induction y with
  | nil => rfl
  | cons c y ih =>
    by_cases hc : p c
    · have hy := words_append_cons (x := []) (y := y) (hp c hc)
      rw [words_nil, List.nil_append, List.nil_append] at hy
      rw [List.dropWhile_cons_of_pos hc, ih, hy]
    · rw [List.dropWhile_cons_of_neg hc]

theorem words_rdropWhile {p : α → Bool} (hp : ∀ c, p c = true → inWord c = false) (x : List α) :
    words inWord (x.rdropWhile p) = words inWord x := by
  induction x using List.reverseRecOn with
  | nil => rfl
  | append_singleton x c ih =>
    by_cases hc : p c
    · rw [List.rdropWhile_concat_pos _ _ _ hc, ih, words_append_cons (hp c hc), words_nil, List.append_nil]
    · rw [List.rdropWhile_concat_neg _ _ _ hc]

/-- A word of a text stands in it between what closes and what opens. -/
theorem exists_of_mem (h : w ∈ words inWord t) : ∃ x y, t = x ++ (w ++ y) ∧ Closes inWord x ∧ Opens inWord y := by
  induction hn : t.length using Nat.strong_induction_on generalizing t with
  | _ n ih =>
    subst hn
    rw [words_eq_after] at h
    rcases List.mem_append.mp h with hfirst | hrest
    · rw [words_of_forall fun c hc => List.mem_takeWhile_imp hc] at hfirst
      split at hfirst
      · cases hfirst
      · obtain rfl := List.mem_singleton.mp hfirst
        exact ⟨[], t.dropWhile inWord, (List.takeWhile_append_dropWhile ..).symm, by simp [Closes], opens_dropWhile t⟩
    · have hopens := @opens_dropWhile _ inWord t
      have hsplit := List.takeWhile_append_dropWhile (p := inWord) (l := t)
      cases hdrop : t.dropWhile inWord with
      | nil =>
        rw [hdrop] at hrest
        simp at hrest
      | cons c rest =>
        rw [hdrop] at hrest hopens hsplit
        have hc : inWord c = false := hopens c rfl
        have hy := words_append_cons (x := []) (y := rest) hc
        rw [words_nil, List.nil_append, List.nil_append] at hy
        rw [hy] at hrest
        have hlen := congrArg List.length hsplit
        rw [List.length_append, List.length_cons] at hlen
        obtain ⟨x, y, rfl, hx, hyo⟩ := ih _ (by omega) hrest rfl
        refine ⟨t.takeWhile inWord ++ c :: x, y, hsplit.symm.trans (by simp), ?_, hyo⟩
        intro d hd
        rcases x.eq_nil_or_concat with rfl | ⟨x', e, rfl⟩
        · obtain rfl : c = d := by simpa using hd
          exact hc
        · have hend : t.takeWhile inWord ++ c :: x'.concat e = (t.takeWhile inWord ++ c :: x') ++ [e] := by simp
          rw [hend, List.getLast?_concat] at hd
          obtain rfl : e = d := by simpa using hd
          exact hx e (by simp)

section Layout

variable {gap : List α → List α → α}

/-- Words set one after the other, with something between each two. -/
def layout (gap : List α → List α → α) : List (List α) → List α
  | [] => []
  | [w] => w
  | w :: v :: ws => w ++ gap w v :: layout gap (v :: ws)

/-- What is set before a word. -/
def before (gap : List α → List α → α) (l : List (List α)) (w : List α) : List α :=
  match l.getLast? with
  | none => []
  | some v => layout gap l ++ [gap v w]

/-- What is set after a word. -/
def after (gap : List α → List α → α) (w : List α) (r : List (List α)) : List α :=
  match r with
  | [] => []
  | v :: _ => gap w v :: layout gap r

theorem layout_cons (w : List α) (r : List (List α)) : layout gap (w :: r) = w ++ after gap w r := by
  cases r with
  | nil => simp [layout, after]
  | cons v r => rfl

theorem before_cons_cons (u v : List α) (l : List (List α)) (w : List α) :
    before gap (u :: v :: l) w = u ++ gap u v :: before gap (v :: l) w := by
  unfold before
  rw [List.getLast?_cons_cons]
  cases h : (v :: l).getLast? with
  | none => simp at h
  | some x => simp [layout]

theorem layout_append_cons (l : List (List α)) (w : List α) (r : List (List α)) :
    layout gap (l ++ w :: r) = before gap l w ++ (w ++ after gap w r) := by
  induction l with
  | nil => simp [before, layout_cons]
  | cons u l ih =>
    cases l with
    | nil => simp [before, after, layout, layout_cons]
    | cons v l =>
      rw [before_cons_cons, List.cons_append, List.cons_append, layout, ← List.cons_append, ih]
      simp

theorem closes_before (hgap : ∀ v w, inWord (gap v w) = false) (l : List (List α)) (w : List α) :
    Closes inWord (before gap l w) := by
  intro c hc
  unfold before at hc
  cases h : l.getLast? with
  | none => simp [h] at hc
  | some v =>
    simp only [h, List.getLast?_append, List.getLast?_singleton, Option.some_or, Option.mem_some_iff] at hc
    exact hc ▸ hgap v w

theorem opens_after (hgap : ∀ v w, inWord (gap v w) = false) (w : List α) (r : List (List α)) :
    Opens inWord (after gap w r) := by
  intro c hc
  cases r with
  | nil => simp [after] at hc
  | cons v r =>
    obtain rfl : gap w v = c := by simpa [after] using hc
    exact hgap w v

/-- Set so, the words of the text are these. -/
theorem words_layout (hgap : ∀ v w, inWord (gap v w) = false) (h : ∀ w ∈ ws, IsWord inWord w) :
    words inWord (layout gap ws) = ws := by
  induction ws with
  | nil => simp [layout]
  | cons w ws ih =>
    have hw := (h w (.head _)).words
    cases ws with
    | nil => exact hw
    | cons v ws =>
      rw [layout, words_append_cons (hgap w v), hw, ih fun u hu => h u (.tail _ hu)]
      rfl

end Layout

end Words

end Lib
