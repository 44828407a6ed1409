import Rootmode.Lib.Prefixes

namespace Rootmode.Gateway

open Lib Lib.Text

/-- Where a needle starts in a text, the case of ASCII letters aside. -/
def findIgnoreAsciiCase (needle : Text) : Text → Option ℕ
  | [] => none
  | c :: hay =>
    if eqIgnoreAsciiCase ((c :: hay).take needle.length) needle then some 0
    else (findIgnoreAsciiCase needle hay).map (· + 1)

/-- A text without what stands between two tags, and the tags.  What is opened and never closed goes to
the end. -/
def cutTag (opening closing : Text) : ℕ → Text → Text
  | 0, out => out
  | fuel + 1, out =>
    match findIgnoreAsciiCase opening out with
    | none => out
    | some start =>
      let after := start + opening.length
      match findIgnoreAsciiCase closing (out.drop after) with
      | some rel => cutTag opening closing fuel (out.take start ++ out.drop (after + rel + closing.length))
      | none => out.take start

def thinkingTags : List (Text × Text) :=
  [("<think>".toList, "</think>".toList), ("<thinking>".toList, "</thinking>".toList)]

/-- Every pass makes a text shorter. -/
def withoutTag (tag : Text × Text) (out : Text) : Text := cutTag tag.1 tag.2 out.length out

def withoutThinking (input : Text) : Text := thinkingTags.foldl (fun out tag => withoutTag tag out) input

/-- What is collapsed so far, and how many blank lines it ends in. -/
structure Collapsed where
  out : Text := []
  blank : ℕ := 0

def Collapsed.line (c : Collapsed) (line : Text) : Collapsed :=
  if trim line = [] then
    let blank := min (c.blank + 1) 255
    { out := if blank ≤ 1 ∧ c.out ≠ [] then c.out ++ ['\n'] else c.out, blank }
  else
    let out := if c.out ≠ [] ∧ c.out.getLast? ≠ some '\n' then c.out ++ ['\n'] else c.out
    { out := out ++ trimEnd line, blank := 0 }

def collapseBlankLines (s : Text) : Text := trim ((lines s).foldl Collapsed.line {}).out

/-- A completion without its reasoning. -/
def peelThinking (input : Text) : Text := collapseBlankLines (withoutThinking input)

section Cut

variable {opening closing hay out : Text}

theorem findIgnoreAsciiCase_bound {start : ℕ} (h : findIgnoreAsciiCase opening hay = some start) :
    start + opening.length ≤ hay.length := by
  induction hay generalizing start with
  | nil => cases h
  | cons c hay ih =>
    unfold findIgnoreAsciiCase at h
    split at h
    · next heq =>
      cases h
      have hlen := congrArg List.length ((eqIgnoreAsciiCase_iff _ _).mp heq)
      simp only [lower, List.length_map, List.length_take] at hlen
      omega
    · obtain ⟨before, hbefore, rfl⟩ := Option.map_eq_some_iff.mp h
      have := ih hbefore
      rw [List.length_cons]
      omega

/-- One pass over a text, the source's loop body. -/
theorem cutTag_eq {fuel : ℕ} (hopening : opening ≠ []) (hfuel : out.length ≤ fuel) :
    cutTag opening closing fuel out = match findIgnoreAsciiCase opening out with
      | none => out
      | some start =>
        let after := start + opening.length
        match findIgnoreAsciiCase closing (out.drop after) with
        | some rel =>
          let rest := out.take start ++ out.drop (after + rel + closing.length)
          cutTag opening closing rest.length rest
        | none => out.take start := by
  have hpos : 0 < opening.length := List.length_pos_iff.mpr hopening
  -- the induction is on the fuel of the pass that is made, any more of it does the same
  have hmore : ∀ fuel out, out.length ≤ fuel →
      cutTag opening closing fuel out = cutTag opening closing out.length out := by
    intro fuel
    induction fuel using Nat.strong_induction_on with
    | _ fuel ih =>
      intro out hout
      cases fuel with
      | zero => rw [Nat.le_zero.mp hout]
      | succ fuel =>
        cases hlen : out.length with
        | zero =>
          rw [List.length_eq_zero_iff.mp hlen]
          rfl
        | succ n =>
          rw [cutTag, cutTag]
          cases hstart : findIgnoreAsciiCase opening out with
          | none => rfl
          | some start =>
            simp only
            cases hrel : findIgnoreAsciiCase closing (out.drop (start + opening.length)) with
            | none => rfl
            | some rel =>
              have hbound := findIgnoreAsciiCase_bound hstart
              have hshort : (out.take start ++
                  out.drop (start + opening.length + rel + closing.length)).length ≤ n := by
                simp only [List.length_append, List.length_take, List.length_drop]
                omega
              simp only
              rw [ih fuel (by omega) _ (by omega), ih n (by omega) _ hshort]
  rw [hmore fuel out hfuel]
  cases hlen : out.length with
  | zero =>
    rw [List.length_eq_zero_iff.mp hlen]
    rfl
  | succ n =>
    rw [cutTag]
    cases hstart : findIgnoreAsciiCase opening out with
    | none => rfl
    | some start =>
      simp only
      cases hrel : findIgnoreAsciiCase closing (out.drop (start + opening.length)) with
      | none => rfl
      | some rel =>
        have hbound := findIgnoreAsciiCase_bound hstart
        simp only
        rw [hmore n _ (by
          simp only [List.length_append, List.length_take, List.length_drop]
          omega)]

variable {tag : Text × Text} {t : Text} {start rel : ℕ}

theorem withoutTag_none (h : findIgnoreAsciiCase tag.1 t = none) : withoutTag tag t = t := by
  unfold withoutTag
  cases hlen : t.length with
  | zero => rfl
  | succ n => rw [cutTag, h]

/-- What is opened and never closed. -/
theorem withoutTag_open (h : findIgnoreAsciiCase tag.1 t = some start)
    (hclosing : findIgnoreAsciiCase tag.2 (t.drop (start + tag.1.length)) = none) :
    withoutTag tag t = t.take start := by
  unfold withoutTag
  cases hlen : t.length with
  | zero => rw [List.length_eq_zero_iff.mp hlen, List.take_nil]; rfl
  | succ n => simp only [cutTag, h, hclosing]

/-- A text without the first of what its tags enclose. -/
def cutOnce (tag : Text × Text) (t : Text) (start rel : ℕ) : Text :=
  t.take start ++ t.drop (start + tag.1.length + rel + tag.2.length)

theorem cutOnce_length (htag : tag.1 ≠ []) (h : findIgnoreAsciiCase tag.1 t = some start) (rel : ℕ) :
    (cutOnce tag t start rel).length < t.length := by
  have hpos : 0 < tag.1.length := List.length_pos_iff.mpr htag
  have hbound := findIgnoreAsciiCase_bound h
  simp only [cutOnce, List.length_append, List.length_take, List.length_drop]
  omega

theorem withoutTag_cut (htag : tag.1 ≠ []) (h : findIgnoreAsciiCase tag.1 t = some start)
    (hclosing : findIgnoreAsciiCase tag.2 (t.drop (start + tag.1.length)) = some rel) :
    withoutTag tag t = withoutTag tag (cutOnce tag t start rel) := by
  rw [withoutTag, cutTag_eq htag (le_refl _), h]
  simp only [hclosing]
  rfl

end Cut

section Append

/-- The text ends within a tag. -/
def EndsInside (tag t : Text) : Prop :=
  ∃ u, u ≠ [] ∧ u <:+ t ∧ u.length < tag.length ∧ eqIgnoreAsciiCase u (tag.take u.length) = true

variable {opening closing hay r s : Text} {start : ℕ}

theorem findIgnoreAsciiCase_append (h : findIgnoreAsciiCase opening hay = some start) :
    findIgnoreAsciiCase opening (hay ++ s) = some start := by
  induction hay generalizing start with
  | nil => cases h
  | cons c hay ih =>
    have hbound := findIgnoreAsciiCase_bound h
    have htake : (c :: (hay ++ s)).take opening.length = (c :: hay).take opening.length := by
      rw [← List.cons_append, List.take_append_of_le_length]
      omega
    rw [List.cons_append, findIgnoreAsciiCase, htake]
    rw [findIgnoreAsciiCase] at h
    split at h
    · next heq => rw [if_pos heq, h]
    · next hne =>
      obtain ⟨before, hbefore, rfl⟩ := Option.map_eq_some_iff.mp h
      rw [if_neg hne, ih hbefore]
      rfl

/-- What a text has none of and does not end in begins only after it. -/
theorem findIgnoreAsciiCase_after (hnone : findIgnoreAsciiCase opening hay = none)
    (hend : ¬ EndsInside opening hay) (h : findIgnoreAsciiCase opening (hay ++ s) = some start) :
    hay.length ≤ start := by
  induction hay generalizing start with
  | nil => exact Nat.zero_le _
  | cons c hay ih =>
    rw [findIgnoreAsciiCase] at hnone
    split at hnone
    · cases hnone
    · next hne =>
      have hhere : ¬ eqIgnoreAsciiCase ((c :: (hay ++ s)).take opening.length) opening = true := by
        intro heq
        by_cases hlong : opening.length ≤ (c :: hay).length
        · rw [← List.cons_append, List.take_append_of_le_length hlong] at heq
          exact hne heq
        · refine hend ⟨c :: hay, List.cons_ne_nil _ _, List.suffix_refl _, by omega, ?_⟩
          rw [eqIgnoreAsciiCase_iff] at heq ⊢
          have hcut := congrArg (List.take (c :: hay).length) heq
          rw [lower, lower, ← List.map_take, ← List.map_take, List.take_take, ← List.cons_append,
            Nat.min_eq_left (by omega), List.take_left] at hcut
          exact hcut
      rw [List.cons_append, findIgnoreAsciiCase, if_neg hhere] at h
      obtain ⟨before, hbefore, rfl⟩ := Option.map_eq_some_iff.mp h
      have hrest : ¬ EndsInside opening hay := by
        rintro ⟨u, hu, hsuffix, hshort, heq⟩
        exact hend ⟨u, hu, hsuffix.trans (List.suffix_cons _ _), hshort, heq⟩
      have := ih (Option.map_eq_none_iff.mp hnone) hrest hbefore
      rw [List.length_cons]
      omega

/-- What is left of a text stays when more comes after it, unless it ends within an opening tag. -/
theorem withoutTag_append (tag : Text × Text) (htag : tag.1 ≠ []) (r s : Text)
    (hend : ¬ EndsInside tag.1 (withoutTag tag r)) : withoutTag tag r <+: withoutTag tag (r ++ s) := by
  -- the induction is on the length of the whole, of which every pass cuts something
  induction hn : (r ++ s).length using Nat.strong_induction_on generalizing r s with
  | _ n ih =>
    cases hr : findIgnoreAsciiCase tag.1 r with
    | none =>
      rw [withoutTag_none hr] at hend ⊢
      cases hrs : findIgnoreAsciiCase tag.1 (r ++ s) with
      | none =>
        rw [withoutTag_none hrs]
        exact List.prefix_append _ _
      | some start =>
        have hafter := findIgnoreAsciiCase_after hr hend hrs
        have htake : (r ++ s).take start = r ++ s.take (start - r.length) := by
          rw [List.take_append, List.take_of_length_le hafter]
        cases hclosing : findIgnoreAsciiCase tag.2 ((r ++ s).drop (start + tag.1.length)) with
        | none =>
          rw [withoutTag_open hrs hclosing, htake]
          exact List.prefix_append _ _
        | some rel =>
          have hshort := cutOnce_length htag hrs rel
          rw [withoutTag_cut htag hrs hclosing]
          rw [cutOnce, htake, List.append_assoc] at hshort ⊢
          have hrest := ih _ (hn ▸ hshort) r _ (by rwa [withoutTag_none hr]) rfl
          rwa [withoutTag_none hr] at hrest
    | some start =>
      have hrs := findIgnoreAsciiCase_append (s := s) hr
      have hbound := findIgnoreAsciiCase_bound hr
      have hdrop : (r ++ s).drop (start + tag.1.length) = r.drop (start + tag.1.length) ++ s :=
        List.drop_append_of_le_length hbound
      cases hclosing : findIgnoreAsciiCase tag.2 (r.drop (start + tag.1.length)) with
      | some rel =>
        have hclosing' : findIgnoreAsciiCase tag.2 ((r ++ s).drop (start + tag.1.length)) = some rel := by
          rw [hdrop]
          exact findIgnoreAsciiCase_append hclosing
        have hend' := findIgnoreAsciiCase_bound hclosing
        have hcut : cutOnce tag (r ++ s) start rel = cutOnce tag r start rel ++ s := by
          rw [List.length_drop] at hend'
          rw [cutOnce, cutOnce, List.take_append_of_le_length (by omega),
            List.drop_append_of_le_length (by omega), List.append_assoc]
        have hshort := cutOnce_length htag hrs rel
        rw [withoutTag_cut htag hr hclosing] at hend ⊢
        rw [withoutTag_cut htag hrs hclosing']
        rw [hcut] at hshort ⊢
        exact ih _ (hn ▸ hshort) _ s hend rfl
      | none =>
        have htake : (r ++ s).take start = r.take start := List.take_append_of_le_length (by omega)
        -- what is before the tag has none of it
        have hbefore : findIgnoreAsciiCase tag.1 (r.take start) = none := by
          cases hk : findIgnoreAsciiCase tag.1 (r.take start) with
          | none => rfl
          | some k =>
            have hpos : 0 < tag.1.length := List.length_pos_iff.mpr htag
            have hlt := findIgnoreAsciiCase_bound hk
            have happ := findIgnoreAsciiCase_append (s := r.drop start) hk
            rw [List.take_append_drop, hr, Option.some.injEq] at happ
            rw [List.length_take] at hlt
            omega
        rw [withoutTag_open hr hclosing] at hend ⊢
        cases hclosing' : findIgnoreAsciiCase tag.2 ((r ++ s).drop (start + tag.1.length)) with
        | none =>
          rw [withoutTag_open hrs hclosing', htake]
        | some rel =>
          have hshort := cutOnce_length htag hrs rel
          rw [withoutTag_cut htag hrs hclosing']
          rw [cutOnce, htake] at hshort ⊢
          have hrest := ih _ (hn ▸ hshort) (r.take start) _ (by rwa [withoutTag_none hbefore]) rfl
          rwa [withoutTag_none hbefore] at hrest

/-- No opening tag is cut off at the end of a text, its reasoning aside. -/
structure Whole (t : Text) : Prop where
  think : ¬ EndsInside "<think>".toList (withoutTag ("<think>".toList, "</think>".toList) t)
  thinking : ¬ EndsInside "<thinking>".toList (withoutThinking t)

theorem Whole.withoutThinking_append {r : Text} (h : Whole r) (s : Text) :
    withoutThinking r <+: withoutThinking (r ++ s) := by
  obtain ⟨more, hmore⟩ := withoutTag_append ("<think>".toList, "</think>".toList) (by decide) r s
    h.think
  have hsecond := withoutTag_append ("<thinking>".toList, "</thinking>".toList) (by decide)
    (withoutTag ("<think>".toList, "</think>".toList) r) more h.thinking
  rw [hmore] at hsecond
  exact hsecond

end Append

namespace Collapsed

variable {c : Collapsed} {line more : Text}

theorem out_prefix_line : c.out <+: (c.line line).out := by
  unfold Collapsed.line
  split
  · simp only
    split
    · exact List.prefix_append _ _
    · exact List.prefix_refl _
  · simp only
    split
    · exact (List.prefix_append _ _).trans (List.prefix_append _ _)
    · exact List.prefix_append _ _

theorem out_prefix_lines (ls : List Text) : c.out <+: (ls.foldl Collapsed.line c).out := by
  induction ls generalizing c with
  | nil => exact List.prefix_refl _
  | cons l ls ih => exact out_prefix_line.trans ih

theorem line_chomp : c.line (chomp line) = c.line line := by
  unfold Collapsed.line
  rw [trimEnd_chomp]
  by_cases h : trim line = []
  · rw [if_pos h, if_pos ((trim_chomp line).mpr h)]
  · rw [if_neg h, if_neg ((trim_chomp line).not.mpr h)]

/-- A blank line adds nothing but its end. -/
theorem trimEnd_line_blank (h : trim line = []) : trimEnd (c.line line).out = trimEnd c.out := by
  unfold Collapsed.line
  rw [if_pos h]
  simp only
  split
  · rw [trimEnd_append, if_pos (by decide)]
  · rfl

/-- What is said of a line stays when it goes on. -/
theorem trimEnd_line_append : trimEnd (c.line line).out <+: (c.line (line ++ more)).out := by
  by_cases hblank : trim line = []
  · rw [trimEnd_line_blank hblank]
    exact trimEnd_prefix.trans out_prefix_line
  · have hmore : trim (line ++ more) ≠ [] := by
      intro hall
      rw [trim_eq_nil] at hblank hall
      exact hblank fun d hd => hall d (List.mem_append_left _ hd)
    apply trimEnd_prefix.trans
    unfold Collapsed.line
    rw [if_neg hblank, if_neg hmore]
    exact (List.prefix_append_right_inj _).mpr trimEnd_prefix_append

end Collapsed

open Collapsed

/-- What a text is collapsed to stays when more comes after it, its end aside. -/
theorem trimEnd_lines_append (c : Collapsed) (part s t : Text) :
    trimEnd ((linesFrom part s).foldl Collapsed.line c).out <+:
      ((linesFrom part (s ++ t)).foldl Collapsed.line c).out := by
  induction s generalizing c part with
  | nil =>
    rw [List.nil_append]
    induction t generalizing part with
    | nil => exact trimEnd_prefix
    | cons d t ih =>
      have hpart : trimEnd ((linesFrom part []).foldl Collapsed.line c).out <+: (c.line part).out := by
        unfold linesFrom
        split
        · exact trimEnd_prefix.trans out_prefix_line
        · exact trimEnd_prefix
      rw [linesFrom.eq_2]
      split
      · rw [List.foldl_cons, line_chomp]
        exact hpart.trans (out_prefix_lines _)
      · refine List.IsPrefix.trans ?_ (ih (part ++ [d]))
        apply trimEnd_mono
        have hline : linesFrom (part ++ [d]) [] = [part ++ [d]] := if_neg (by simp)
        rw [hline]
        by_cases hnil : part = []
        · rw [hnil]
          exact trimEnd_prefix.trans out_prefix_line
        · have hpart : linesFrom part [] = [part] := if_neg hnil
          rw [hpart]
          exact trimEnd_line_append
  | cons d s ih =>
    rw [List.cons_append, linesFrom, linesFrom]
    split
    · exact ih _ _
    · exact ih _ _

theorem collapseBlankLines_mono {s t : Text} (h : s <+: t) :
    collapseBlankLines s <+: collapseBlankLines t := by
  obtain ⟨more, rfl⟩ := h
  exact trim_mono (trimEnd_lines_append {} [] s more)

/-- Where the reasoning that is cut stays the same, so does what is left. -/
theorem peelThinking_mono {s t : Text} (h : withoutThinking s <+: withoutThinking t) :
    peelThinking s <+: peelThinking t :=
  collapseBlankLines_mono h

/-- What a text is peeled to stays when more comes after it, unless it ends within an opening tag. -/
theorem Whole.peelThinking_append {r : Text} (h : Whole r) (s : Text) :
    peelThinking r <+: peelThinking (r ++ s) :=
  peelThinking_mono (h.withoutThinking_append s)

end Rootmode.Gateway
