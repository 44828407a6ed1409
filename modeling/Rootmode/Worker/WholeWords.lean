import Rootmode.Worker.Spacing

namespace Rootmode.Worker.Screen

open Lib Lib.Text Lib.Words

section Extend

variable {x d y t z m : Text} {p : Char → Bool} {c : Char}

theorem dropWhile_append_of_leads (hm : m ≠ []) (h : m <+: y.dropWhile p) (z : Text) :
    (y ++ z).dropWhile p = y.dropWhile p ++ z := by
  rw [List.dropWhile_append, if_neg]
  rw [List.isEmpty_iff]
  rintro hnil
  rw [hnil] at h
  exact hm (List.prefix_nil.mp h)

theorem rdropWhile_append_of_suffix (hm : m ≠ []) (h : m <:+ x.rdropWhile p) (z : Text) :
    (z ++ x).rdropWhile p = z ++ x.rdropWhile p := by
  have hrev : m.reverse <+: x.reverse.dropWhile p := by
    have := List.reverse_prefix.mpr h
    rwa [List.rdropWhile, List.reverse_reverse] at this
  rw [List.rdropWhile, List.reverse_append, dropWhile_append_of_leads (by simpa using hm) hrev, List.reverse_append,
    List.reverse_reverse]
  rfl

theorem ageAfter_ne_nil : ∀ m ∈ ageAfter, m ≠ [] := by decide

theorem ageBefore_ne_nil : ∀ m ∈ ageBefore, m ≠ [] := by decide

/-- A number still is an age with more before and after it. -/
theorem AgeAt.extend (h : AgeAt x d y) (hstarts : ∀ c ∈ (z ++ x).getLast?, c.isDigit = false)
    (hends : ∀ c ∈ (y ++ t).head?, c.isDigit = false) : AgeAt (z ++ x) d (y ++ t) where
  some := h.some
  number := h.number
  starts := hstarts
  ends := hends
  minor := h.minor
  said := by
    rcases h.said with hsays | hcalled
    · left
      obtain ⟨m, hm, hprefix⟩ := List.any_eq_true.mp hsays
      rw [List.isPrefixOf_iff_prefix] at hprefix
      refine List.any_eq_true.mpr ⟨m, hm, List.isPrefixOf_iff_prefix.mpr ?_⟩
      rw [dropWhile_append_of_leads (ageAfter_ne_nil m hm) hprefix]
      exact hprefix.trans (List.prefix_append _ _)
    · right
      obtain ⟨m, hm, hsuffix⟩ := List.any_eq_true.mp hcalled
      rw [List.isSuffixOf_iff_suffix] at hsuffix
      refine List.any_eq_true.mpr ⟨m, hm, List.isSuffixOf_iff_suffix.mpr ?_⟩
      rw [rdropWhile_append_of_suffix (ageBefore_ne_nil m hm) hsuffix]
      exact hsuffix.trans (List.suffix_append _ _)

/-- More after a space takes nothing from what a text says. -/
theorem states_append (h : statesAMinorAge t = true) (more : Text) : statesAMinorAge (t ++ ' ' :: more) = true := by
  obtain ⟨x, d, y, rfl, hage⟩ := statesAMinorAge_iff.mp h
  refine statesAMinorAge_iff.mpr ⟨x, d, y ++ ' ' :: more, by simp, ?_⟩
  refine hage.extend (z := []) hage.starts ?_
  intro c hc
  cases y with
  | nil =>
    obtain rfl : ' ' = c := by simpa using hc
    decide
  | cons a y => exact hage.ends c hc

end Extend

section Alone

variable {alphanumeric : Char → Bool} {t w x y : Text} {ws : List Text}
  (hascii : ∀ c : Char, c.toNat < 128 → alphanumeric c = c.isAlphanum)

include hascii

theorem not_digit_of_not_word {c : Char} (h : alphanumeric c = false) : c.isDigit = false := by
  by_contra hdigit
  rw [word_of_isDigit hascii (by simpa using hdigit)] at h
  cases h

/-- An age that one word states is one in every text with that word. -/
theorem states_of_word (hw : w ∈ words alphanumeric t) (h : statesAMinorAge w = true) :
    statesAMinorAge t = true := by
  obtain ⟨before, after, rfl, hcloses, hopens⟩ := exists_of_mem hw
  obtain ⟨x, d, y, rfl, hage⟩ := statesAMinorAge_iff.mp h
  refine statesAMinorAge_iff.mpr ⟨before ++ x, d, y ++ after, by simp, hage.extend ?_ ?_⟩
  · intro c hc
    rcases x.eq_nil_or_concat with rfl | ⟨x', a, rfl⟩
    · exact not_digit_of_not_word hascii (hcloses c (by simpa using hc))
    · refine hage.starts c ?_
      rw [List.concat_eq_append, ← List.append_assoc, List.getLast?_concat] at hc
      rwa [List.concat_eq_append, List.getLast?_concat]
  · intro c hc
    cases y with
    | nil => exact not_digit_of_not_word hascii (hopens c hc)
    | cons a y => exact hage.ends c hc

/-- What is said or called by a text of words with commas between them is so by the next word. -/
theorem saysAge_takeWhile (hy : ∀ c ∈ y, alphanumeric c = true ∨ c = ',') (h : saysAge y = true) :
    saysAge (y.takeWhile alphanumeric) = true := by
  have hkeep : ∀ z : Text, (∀ c ∈ z, alphanumeric c = true ∨ c = ',') → z.dropWhile isGap = z := by
    intro z hz
    refine List.dropWhile_eq_self_iff.mpr fun hpos hgap => ?_
    rcases hz _ (List.getElem_mem hpos) with hword | hcomma
    · rw [not_word_of_isGap hascii hgap] at hword
      cases hword
    · rw [hcomma] at hgap
      exact absurd hgap (by decide)
  obtain ⟨m, hm, hprefix⟩ := List.any_eq_true.mp h
  rw [List.isPrefixOf_iff_prefix, hkeep y hy] at hprefix
  refine List.any_eq_true.mpr ⟨m, hm, List.isPrefixOf_iff_prefix.mpr ?_⟩
  rw [hkeep _ fun c hc => hy c ((List.takeWhile_prefix _).subset hc)]
  rcases List.prefix_or_prefix_of_prefix hprefix (List.takeWhile_prefix alphanumeric (l := y)) with hle | ⟨k, hk⟩
  · exact hle
  · -- no marker has a comma
    have hrest : k <+: y.dropWhile alphanumeric := by
      rw [← hk] at hprefix
      conv at hprefix => rhs; rw [← List.takeWhile_append_dropWhile (p := alphanumeric) (l := y)]
      exact (List.prefix_append_right_inj _).mp hprefix
    cases k with
    | nil => rw [← hk, List.append_nil]
    | cons c k =>
      obtain ⟨rest, hrest⟩ := hrest
      have hmem : c ∈ y := (List.dropWhile_suffix alphanumeric).subset (hrest ▸ by simp)
      have hc : alphanumeric c = false := opens_dropWhile y c (by rw [← hrest]; rfl)
      have hcomma : c = ',' := (hy c hmem).resolve_left (by simp [hc])
      have hnone : ∀ m ∈ ageAfter, ',' ∉ m := by decide
      exact absurd (by rw [← hk, hcomma]; simp) (hnone m hm)

theorem calledAge_rtakeWhile (hx : ∀ c ∈ x, alphanumeric c = true ∨ c = ',') (h : calledAge x = true) :
    calledAge (x.rtakeWhile alphanumeric) = true := by
  have hkeep : ∀ z : Text, (∀ c ∈ z, alphanumeric c = true ∨ c = ',') → z.rdropWhile isGap = z := by
    intro z hz
    refine List.rdropWhile_eq_self_iff.mpr fun hne hgap => ?_
    rcases hz _ (List.getLast_mem hne) with hword | hcomma
    · rw [not_word_of_isGap hascii hgap] at hword
      cases hword
    · rw [hcomma] at hgap
      exact absurd hgap (by decide)
  obtain ⟨m, hm, hsuffix⟩ := List.any_eq_true.mp h
  rw [List.isSuffixOf_iff_suffix, hkeep x hx] at hsuffix
  refine List.any_eq_true.mpr ⟨m, hm, List.isSuffixOf_iff_suffix.mpr ?_⟩
  rw [hkeep _ fun c hc => hx c ((List.rtakeWhile_suffix _ _).subset hc)]
  rcases List.suffix_or_suffix_of_suffix hsuffix (List.rtakeWhile_suffix alphanumeric x) with hle | ⟨k, hk⟩
  · exact hle
  · have hrest : k <:+ x.rdropWhile alphanumeric := by
      rw [← hk] at hsuffix
      conv at hsuffix => rhs; rw [← List.rdropWhile_append_rtakeWhile (p := alphanumeric) (l := x)]
      obtain ⟨rest, hrest⟩ := hsuffix
      exact ⟨rest, List.append_cancel_right (by rw [List.append_assoc]; exact hrest)⟩
    rcases k.eq_nil_or_concat with rfl | ⟨k, c, rfl⟩
    · rw [← hk, List.nil_append]
    · obtain ⟨rest, hrest⟩ := hrest
      have hmem : c ∈ x := (List.rdropWhile_prefix alphanumeric x).subset (hrest ▸ by simp)
      have hc : alphanumeric c = false := closes_rdropWhile x c (by rw [← hrest]; simp)
      have hcomma : c = ',' := (hx c hmem).resolve_left (by simp [hc])
      have hnone : ∀ m ∈ ageBefore, ',' ∉ m := by decide
      exact absurd (by rw [← hk, hcomma]; simp) (hnone m hm)

/-- Words set with commas between them state no age but one that a word states. -/
theorem word_of_states (ht : ∀ c ∈ t, alphanumeric c = true ∨ c = ',') (h : statesAMinorAge t = true) :
    ∃ w ∈ words alphanumeric t, statesAMinorAge w = true := by
  obtain ⟨x, d, y, rfl, hage⟩ := statesAMinorAge_iff.mp h
  have hwords := words_number hascii hage.toNumberAt
  refine ⟨x.rtakeWhile alphanumeric ++ (d ++ y.takeWhile alphanumeric), hwords ▸ by simp, ?_⟩
  refine statesAMinorAge_iff.mpr ⟨_, _, _, rfl, hage.toNumberAt.within, hage.said.imp ?_ ?_⟩
  · exact saysAge_takeWhile hascii fun c hc => ht c (by simp [hc])
  · exact calledAge_rtakeWhile hascii fun c hc => ht c (by simp [hc])

end Alone

/-- Between words, so that every phrase and age across them is there as the screen looks for it. -/
def spaced (w v : Text) : Char := if w.getLast? = some 'y' ∧ v.head? = some 'o' then '/' else ' '

def commas (_ _ : Text) : Char := ','

section Spaced

variable {alphanumeric : Char → Bool} {w v pre d suf p : Text} {l r ws : List Text}
  (hascii : ∀ c : Char, c.toNat < 128 → alphanumeric c = c.isAlphanum)

theorem spaced_of_last {c : Char} (h : w.getLast? = some c) (hc : c ≠ 'y') (v : Text) : spaced w v = ' ' := by
  rw [spaced, if_neg]
  rintro ⟨hlast, -⟩
  exact hc (Option.some.inj (h.symm.trans hlast))

theorem spaced_of_head {c : Char} (h : v.head? = some c) (hc : c ≠ 'o') (w : Text) : spaced w v = ' ' := by
  rw [spaced, if_neg]
  rintro ⟨-, hhead⟩
  exact hc (Option.some.inj (h.symm.trans hhead))

theorem layout_concat (gap : Text → Text → Char) (l : List Text) (w : Text) :
    layout gap (l ++ [w]) = Words.before gap l w ++ w := by
  rw [layout_append_cons, Words.after, List.append_nil]

theorem suffix_layout (gap : Text → Text → Char) (l : List Text) (w : Text) : w <:+ layout gap (l ++ [w]) := by
  rw [layout_concat]
  exact List.suffix_append _ _

theorem prefix_layout (gap : Text → Text → Char) (w : Text) (r : List Text) : w <+: layout gap (w :: r) := by
  rw [layout_cons]
  exact List.prefix_append _ _

/-- What the words say, they say in the layout. -/
theorem says_layout (h : Says ws) : ∃ m ∈ ageAfter, m <+: layout spaced ws := by
  cases ws with
  | nil => exact h.elim
  | cons w r =>
    rcases h with ⟨m, hm, hprefix⟩ | ⟨rfl, v, hv, hprefix⟩
    · have hmem : ∀ m ∈ ["yo", "yr", "year"].map ofString, m ∈ ageAfter := by decide
      exact ⟨m, hmem m hm, hprefix.trans (prefix_layout ..)⟩
    · cases r with
      | nil => cases hv
      | cons u r =>
        obtain rfl : u = v := by simpa using hv
        obtain ⟨z, rfl⟩ := hprefix
        refine ⟨ofString "y/o", by decide, ?_⟩
        rw [layout, layout_cons, spaced, if_pos ⟨rfl, rfl⟩]
        exact ⟨z ++ Words.after spaced (ofString "o" ++ z) r, by simp [ofString]⟩

theorem called_layout (h : Called ws.reverse) : ∃ m ∈ ageBefore, m <:+ layout spaced ws := by
  rcases ws.eq_nil_or_concat with rfl | ⟨l, w, rfl⟩
  · exact h.elim
  · rw [List.concat_eq_append] at *
    rw [List.reverse_append, List.reverse_singleton, List.singleton_append] at h
    rcases h with ⟨m, hm, hsuffix⟩ | ⟨rfl, u, hu, hsuffix⟩
    · have hmem : ∀ m ∈ ["age", "aged", "old"].map ofString, m ∈ ageBefore := by decide
      exact ⟨m, hmem m hm, hsuffix.trans (suffix_layout ..)⟩
    · rcases l.eq_nil_or_concat with rfl | ⟨l, u', rfl⟩
      · cases hu
      · rw [List.concat_eq_append] at *
        obtain rfl : u' = u := by simpa using hu
        obtain ⟨z, hz⟩ := hsuffix.trans (suffix_layout spaced l u')
        obtain ⟨z', rfl⟩ := hsuffix
        have hgap : spaced (z' ++ ofString "age") (ofString "of") = ' ' :=
          spaced_of_last (c := 'e') (by simp [ofString]) (by decide) _
        refine ⟨ofString "age of", by decide, z, ?_⟩
        rw [layout_concat, Words.before, List.getLast?_concat]
        dsimp only
        rw [hgap, ← hz]
        simp [ofString]

include hascii

theorem spaced_not_word (w v : Text) : alphanumeric (spaced w v) = false := by
  unfold spaced
  split
  · exact slash_not_word hascii
  · exact space_not_word hascii

theorem commas_not_word (w v : Text) : alphanumeric (commas w v) = false := by
  rw [commas, hascii _ (by decide)]
  decide

/-- A text that begins with a word has no gap to skip. -/
theorem dropWhile_layout (hws : ∀ w ∈ ws, IsWord alphanumeric w) :
    (layout spaced ws).dropWhile isGap = layout spaced ws := by
  refine List.dropWhile_eq_self_iff.mpr fun hpos hgap => ?_
  cases ws with
  | nil => simp [layout] at hpos
  | cons w r =>
    have hw := hws w (.head _)
    cases w with
    | nil => exact hw.1 rfl
    | cons c w =>
      simp only [layout_cons, List.cons_append, List.getElem_cons_zero] at hgap
      have hc := hw.2 c (.head _)
      rw [not_word_of_isGap hascii hgap] at hc
      cases hc

theorem rdropWhile_layout (hws : ∀ w ∈ ws, IsWord alphanumeric w) :
    (layout spaced ws).rdropWhile isGap = layout spaced ws := by
  refine List.rdropWhile_eq_self_iff.mpr fun hne hgap => ?_
  rcases ws.eq_nil_or_concat with rfl | ⟨l, w, rfl⟩
  · exact hne rfl
  · have hw := hws w (by simp)
    have hlast : (layout spaced (l.concat w)).getLast hne = w.getLast hw.1 := by
      simp only [List.concat_eq_append, layout_concat]
      exact List.getLast_append_of_ne_nil _ hw.1
    rw [hlast] at hgap
    have hc := hw.2 _ (List.getLast_mem hw.1)
    rw [not_word_of_isGap hascii hgap] at hc
    cases hc

theorem saysAge_layout (hws : ∀ w ∈ ws, IsWord alphanumeric w) (h : Says ws) :
    saysAge (layout spaced ws) = true ∧ saysAge (' ' :: layout spaced ws) = true := by
  obtain ⟨m, hm, hprefix⟩ := says_layout h
  have hdrop := dropWhile_layout hascii hws
  constructor
  · refine List.any_eq_true.mpr ⟨m, hm, List.isPrefixOf_iff_prefix.mpr ?_⟩
    rwa [hdrop]
  · refine List.any_eq_true.mpr ⟨m, hm, List.isPrefixOf_iff_prefix.mpr ?_⟩
    rwa [List.dropWhile_cons_of_pos (by decide), hdrop]

theorem calledAge_layout (hws : ∀ w ∈ ws, IsWord alphanumeric w) (h : Called ws.reverse) :
    calledAge (layout spaced ws) = true ∧ calledAge (layout spaced ws ++ [' ']) = true := by
  obtain ⟨m, hm, hsuffix⟩ := called_layout h
  have hdrop := rdropWhile_layout hascii hws
  constructor
  · refine List.any_eq_true.mpr ⟨m, hm, List.isSuffixOf_iff_suffix.mpr ?_⟩
    rwa [hdrop]
  · refine List.any_eq_true.mpr ⟨m, hm, List.isSuffixOf_iff_suffix.mpr ?_⟩
    rwa [List.rdropWhile_concat_pos _ _ _ (by decide), hdrop]

/-- After a number of a word comes what the rest of the word and the next ones say. -/
theorem said_after (hws : ∀ w ∈ (pre ++ (d ++ suf)) :: r, IsWord alphanumeric w) (hd : NumberAt pre d suf)
    (h : Says (lead suf r)) : saysAge (suf ++ Words.after spaced (pre ++ (d ++ suf)) r) = true := by
  have hr : ∀ w ∈ r, IsWord alphanumeric w := fun w hw => hws w (.tail _ hw)
  by_cases hsuf : suf = []
  · subst hsuf
    rw [lead, if_pos rfl] at h
    cases r with
    | nil => exact h.elim
    | cons v r =>
      obtain ⟨d', c, rfl⟩ := List.eq_nil_or_concat d |>.resolve_left hd.some
      have hc : c ≠ 'y' := by
        rintro rfl
        exact absurd (hd.number 'y' (by simp)) (by decide)
      rw [List.nil_append, Words.after, spaced_of_last (c := c) (by simp) hc]
      exact (saysAge_layout hascii hr h).2
  · rw [lead, if_neg hsuf] at h
    have hword : IsWord alphanumeric suf :=
      ⟨hsuf, fun c hc => (hws _ (.head _)).2 c (by simp [hc])⟩
    have hsame : Words.after spaced (pre ++ (d ++ suf)) r = Words.after spaced suf r := by
      cases r with
      | nil => rfl
      | cons v r =>
        have hlast : (pre ++ (d ++ suf)).getLast? = suf.getLast? := by
          rw [← List.append_assoc, List.getLast?_append_of_ne_nil _ hsuf]
        simp only [Words.after, spaced, hlast]
    rw [hsame, ← layout_cons]
    exact (saysAge_layout hascii (by
      intro w hw
      rcases List.mem_cons.mp hw with rfl | hw
      · exact hword
      · exact hr w hw) h).1

theorem said_before (hl : ∀ w ∈ l, IsWord alphanumeric w) (hword : IsWord alphanumeric (pre ++ (d ++ suf)))
    (hd : NumberAt pre d suf) (h : Called (lead pre l.reverse)) :
    calledAge (Words.before spaced l (pre ++ (d ++ suf)) ++ pre) = true := by
  by_cases hpre : pre = []
  · subst hpre
    rw [lead, if_pos rfl] at h
    rcases l.eq_nil_or_concat with rfl | ⟨l, v, rfl⟩
    · exact h.elim
    · obtain ⟨c, d', rfl⟩ := List.exists_cons_of_ne_nil hd.some
      have hc : c ≠ 'o' := by
        rintro rfl
        exact absurd (hd.number 'o' (by simp)) (by decide)
      have hbefore : Words.before spaced (l.concat v) ([] ++ (c :: d' ++ suf)) =
          layout spaced (l.concat v) ++ [' '] := by
        rw [Words.before, List.concat_eq_append, List.getLast?_concat]
        dsimp only
        rw [spaced_of_head (c := c) (by simp) hc]
      rw [hbefore, List.append_nil]
      exact (calledAge_layout hascii hl h).2
  · have hsame : Words.before spaced l (pre ++ (d ++ suf)) = Words.before spaced l pre := by
      unfold Words.before
      cases l.getLast? with
      | none => rfl
      | some v =>
        have hhead : (pre ++ (d ++ suf)).head? = pre.head? := List.head?_append_of_ne_nil _ hpre
        simp only [spaced, hhead]
    rw [lead, if_neg hpre] at h
    rw [hsame, ← layout_concat]
    refine (calledAge_layout hascii ?_ (by simpa using h)).1
    intro w hw
    rcases List.mem_append.mp hw with hl' | hlast
    · exact hl w hl'
    · obtain rfl := List.mem_singleton.mp hlast
      exact ⟨hpre, fun c hc => hword.2 c (by simp [hc])⟩

/-- An age across words is one in their layout. -/
theorem states_layout (hws : ∀ w ∈ ws, IsWord alphanumeric w) (h : AgeAcross ws) :
    statesAMinorAge (layout spaced ws) = true := by
  obtain ⟨l, pre, d, suf, r, rfl, hd, hsaid⟩ := h
  have hword : IsWord alphanumeric (pre ++ (d ++ suf)) := hws _ (by simp)
  refine statesAMinorAge_iff.mpr
    ⟨Words.before spaced l (pre ++ (d ++ suf)) ++ pre, d, suf ++ Words.after spaced (pre ++ (d ++ suf)) r, ?_, ?_⟩
  · rw [layout_append_cons]
    simp only [List.append_assoc]
  · refine ⟨⟨hd.some, hd.number, ?_, ?_, hd.minor⟩, hsaid.imp ?_ ?_⟩
    · intro c hc
      rcases pre.eq_nil_or_concat with rfl | ⟨pre', a, rfl⟩
      · rw [List.append_nil] at hc
        exact not_digit_of_not_word hascii (closes_before (spaced_not_word hascii) l _ c hc)
      · refine hd.starts c ?_
        rw [List.concat_eq_append, ← List.append_assoc, List.getLast?_concat] at hc
        rwa [List.concat_eq_append, List.getLast?_concat]
    · intro c hc
      cases suf with
      | nil => exact not_digit_of_not_word hascii (opens_after (spaced_not_word hascii) _ r c hc)
      | cons a suf => exact hd.ends c hc
    · exact said_after hascii (fun w hw => hws w (List.mem_append_right _ hw)) hd
    · exact said_before hascii (fun w hw => hws w (List.mem_append_left _ hw)) hword hd

omit hascii in
/-- So is a phrase. -/
theorem phrase_layout (hp : p = firstOf p ++ ' ' :: secondOf p) (hfirst : firstOf p ≠ []) (hsecond : secondOf p ≠ [])
    (hgap : ¬ ((firstOf p).getLast? = some 'y' ∧ (secondOf p).head? = some 'o')) (h : PhraseAcross ws p) :
    p <:+: layout spaced ws := by
  obtain ⟨l, _, _, r, rfl, ⟨x, rfl⟩, ⟨y, rfl⟩⟩ := h
  generalize firstOf p = first at *
  generalize secondOf p = second at *
  subst hp
  have hspace : spaced (x ++ first) (second ++ y) = ' ' := by
    rw [spaced, if_neg]
    rintro ⟨hlast, hhead⟩
    rw [List.getLast?_append_of_ne_nil _ hfirst] at hlast
    rw [List.head?_append_of_ne_nil _ hsecond] at hhead
    exact hgap ⟨hlast, hhead⟩
  refine ⟨Words.before spaced l (x ++ first) ++ x, y ++ Words.after spaced (second ++ y) r, ?_⟩
  rw [layout_append_cons, Words.after, hspace, layout_cons]
  simp only [List.append_assoc, List.cons_append]

end Spaced

end Rootmode.Worker.Screen
