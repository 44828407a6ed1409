import Rootmode.Lib.Prefixes

namespace Lib.Text

open List

/-- Every line with its end. -/
def ended (ls : List Text) : Text := ls.flatMap (· ++ ['\n'])

/-- Every line with an end before it. -/
def follow (ls : List Text) : Text := ls.flatMap ('\n' :: ·)

/-- Of blank lines after each other the first. -/
def squeezeFrom (blank : Bool) : List Text → List Text
  | [] => []
  | l :: ls =>
    if l = [] then
      if blank then squeezeFrom true ls else [] :: squeezeFrom true ls
    else l :: squeezeFrom false ls

def squeeze (ls : List Text) : List Text := squeezeFrom false ls

/-- A line that says something, without blanks at its end. -/
structure Solid (l : Text) : Prop where
  single : '\n' ∉ l
  ne_nil : l ≠ []
  trimEnd_eq : trimEnd l = l

/-- Some lines of which the first starts at its first word. -/
def flush : List Text → List Text
  | [] => []
  | l :: ls => l.dropWhile isWhitespace :: ls

/-- A blank line stands in no other place than before or after all that is said. -/
def Unbroken (ls : List Text) : Prop :=
  ∀ before after, ls = before ++ [] :: after → (∀ l ∈ before, l = []) ∨ ∀ l ∈ after, l = []

variable {a b t w l : Text} {c : Char} {ls : List Text}

section Words

theorem isWhitespace_newline : isWhitespace '\n' = true := by decide

/-- What holds no separator stands on one side of it. -/
theorem infix_append_cons (h : c ∉ w) : w <:+: a ++ c :: b ↔ w <:+: a ∨ w <:+: b := by
  constructor
  · rintro ⟨before, after, heq⟩
    rw [List.append_assoc] at heq
    rcases List.append_eq_append_iff.mp heq with ⟨mid, rfl, hmid⟩ | ⟨mid, rfl, hmid⟩
    · -- it begins before the separator
      rcases List.append_eq_append_iff.mp hmid with ⟨rest, rfl, -⟩ | ⟨rest, rfl, hrest⟩
      · exact .inl ⟨before, rest, List.append_assoc _ _ _⟩
      · cases rest with
        | nil => exact .inl ⟨before, [], by simp⟩
        | cons d rest =>
          rw [List.cons_append, List.cons.injEq] at hrest
          exact absurd (List.mem_append_right mid (hrest.1 ▸ List.mem_cons_self)) h
    · cases mid with
      | nil =>
        rw [List.nil_append] at hmid
        cases w with
        | nil => exact .inl List.nil_infix
        | cons d w =>
          rw [List.cons_append, List.cons.injEq] at hmid
          exact absurd (hmid.1 ▸ List.mem_cons_self) h
      | cons d mid =>
        rw [List.cons_append, List.cons.injEq] at hmid
        exact .inr ⟨mid, after, by rw [hmid.2, List.append_assoc]⟩
  · rintro (hleft | hright)
    · exact hleft.trans (List.prefix_append _ _).isInfix
    · exact hright.trans ((List.suffix_cons c b).trans (List.suffix_append a _)).isInfix

variable (hw : ∀ c ∈ w, isWhitespace c = false)
include hw

theorem not_mem_word (hc : isWhitespace c = true) : c ∉ w := by
  intro hmem
  rw [hw c hmem] at hc
  cases hc

theorem infix_trimEnd (hne : w ≠ []) : w <:+: trimEnd t ↔ w <:+: t := by
  induction t using List.reverseRecOn with
  | nil => rfl
  | append_singleton t c ih =>
    by_cases hc : isWhitespace c = true
    · have htrim : trimEnd (t ++ [c]) = trimEnd t := List.rdropWhile_concat_pos _ _ _ hc
      rw [htrim, ih, infix_append_cons (not_mem_word hw hc), List.infix_nil, or_iff_left hne]
    · have htrim : trimEnd (t ++ [c]) = t ++ [c] := List.rdropWhile_concat_neg _ _ _ hc
      rw [htrim]

theorem infix_dropWhile (hne : w ≠ []) : w <:+: t.dropWhile isWhitespace ↔ w <:+: t := by
  induction t with
  | nil => rfl
  | cons c t ih =>
    by_cases hc : isWhitespace c = true
    · have hsplit := infix_append_cons (a := []) (b := t) (not_mem_word hw hc)
      rw [List.nil_append, List.infix_nil, or_iff_right hne] at hsplit
      rw [List.dropWhile_cons_of_pos hc, ih, hsplit]
    · rw [List.dropWhile_cons_of_neg hc]

theorem infix_trim (hne : w ≠ []) : w <:+: trim t ↔ w <:+: t := by
  rw [trim_eq, infix_trimEnd hw hne, infix_dropWhile hw hne]

theorem infix_ended (hne : w ≠ []) : w <:+: ended ls ↔ ∃ l ∈ ls, w <:+: l := by
  induction ls with
  | nil => simp [ended, hne]
  | cons l ls ih =>
    have hsplit := infix_append_cons (a := l) (b := ended ls) (not_mem_word hw isWhitespace_newline)
    rw [ended, List.flatMap_cons, List.append_assoc, List.singleton_append, ← ended, hsplit, ih,
      List.exists_mem_cons_iff]

theorem infix_linesFrom (hne : w ≠ []) (part t : Text) :
    (∃ l ∈ linesFrom part t, w <:+: l) ↔ w <:+: part ++ t := by
  induction t generalizing part with
  | nil =>
    unfold linesFrom
    split
    · next hnil => simp [hnil, hne]
    · simp
  | cons c t ih =>
    unfold linesFrom
    split
    · next hc =>
      have hchomp : w <:+: chomp part ↔ w <:+: part := by
        rw [← infix_trimEnd hw hne, trimEnd_chomp, infix_trimEnd hw hne]
      rw [List.exists_mem_cons_iff, ih, List.nil_append, hc,
        infix_append_cons (not_mem_word hw isWhitespace_newline), hchomp]
    · rw [ih, List.append_assoc, List.singleton_append]

theorem infix_lines (hne : w ≠ []) : (∃ l ∈ lines t, w <:+: l) ↔ w <:+: t := by
  rw [lines, infix_linesFrom hw hne, List.nil_append]

end Words

section Solid

theorem Solid.trimEnd_append (h : Solid l) : trimEnd (a ++ l ++ b) = a ++ l ++ trimEnd b := by
  have hline : trimEnd (a ++ l) = a ++ l := by
    rw [Text.trimEnd_append, h.trimEnd_eq, if_neg h.ne_nil]
  rw [Text.trimEnd_append]
  split
  · next hnil => rw [hnil, List.append_nil, hline]
  · rfl

theorem Solid.dropWhile_ne_nil (h : Solid l) : l.dropWhile isWhitespace ≠ [] := by
  intro hnil
  have hblank := trimEnd_eq_nil.mpr (List.dropWhile_eq_nil_iff.mp hnil)
  exact h.ne_nil (h.trimEnd_eq ▸ hblank)

theorem Solid.dropWhile (h : Solid l) : Solid (l.dropWhile isWhitespace) where
  single hmem := h.single ((List.dropWhile_sublist _).mem hmem)
  ne_nil := h.dropWhile_ne_nil
  trimEnd_eq := by
    have hsplit : l.takeWhile isWhitespace ++ l.dropWhile isWhitespace = l := List.takeWhile_append_dropWhile
    have hend := h.trimEnd_eq
    rw [← hsplit, Text.trimEnd_append] at hend
    split at hend
    · have hblank : trimEnd (l.takeWhile isWhitespace) = [] :=
        trimEnd_eq_nil.mpr fun _ => List.mem_takeWhile_imp
      rw [hblank, hsplit] at hend
      exact absurd hend.symm h.ne_nil
    · exact List.append_cancel_left hend

theorem Solid.trim_append (h : Solid l) : trim (l ++ b) = l.dropWhile isWhitespace ++ trimEnd b := by
  have hdrop : (l ++ b).dropWhile isWhitespace = l.dropWhile isWhitespace ++ b := by
    rw [List.dropWhile_append, if_neg (by rw [List.isEmpty_iff]; exact h.dropWhile_ne_nil)]
  have hend := h.dropWhile.trimEnd_append (a := []) (b := b)
  rw [trim_eq, hdrop]
  exact hend

theorem Solid.head_ne (h : Solid l) (x y : Text) : l ++ x ≠ '\n' :: y := by
  cases hl : l with
  | nil => exact absurd hl h.ne_nil
  | cons c l =>
    rw [List.cons_append]
    intro heq
    cases heq
    exact h.single (hl ▸ List.mem_cons_self)

theorem ended_cons (l : Text) (ls : List Text) : ended (l :: ls) = l ++ '\n' :: ended ls := by
  rw [ended, List.flatMap_cons, List.append_assoc]
  rfl

theorem follow_cons (l : Text) (ls : List Text) : follow (l :: ls) = '\n' :: (l ++ follow ls) := rfl

theorem Solid.trimEnd_cons (h : Solid l) : trimEnd ('\n' :: (l ++ b)) = '\n' :: (l ++ trimEnd b) :=
  h.trimEnd_append (a := ['\n'])

theorem trimEnd_newline_ended (h : ∀ l ∈ ls, Solid l) : trimEnd ('\n' :: ended ls) = follow ls := by
  induction ls with
  | nil => decide
  | cons l ls ih =>
    rw [ended_cons, (h l List.mem_cons_self).trimEnd_cons, ih fun l hl => h l (List.mem_cons_of_mem _ hl),
      follow_cons]

theorem trim_ended_cons (h : Solid l) (hls : ∀ l ∈ ls, Solid l) :
    trim (ended (l :: ls)) = l.dropWhile isWhitespace ++ follow ls := by
  rw [ended_cons, h.trim_append, trimEnd_newline_ended hls]

theorem trim_newline (t : Text) : trim ('\n' :: t) = trim t := rfl

end Solid

section Lines

theorem newline_not_mem_linesFrom (hpart : '\n' ∉ a) (hl : l ∈ linesFrom a t) : '\n' ∉ l := by
  induction t generalizing a with
  | nil =>
    unfold linesFrom at hl
    split at hl
    · cases hl
    · rwa [List.mem_singleton.mp hl]
  | cons c t ih =>
    unfold linesFrom at hl
    split at hl
    · cases hl with
      | head =>
        rcases chomp_cases a with hsame | hcut
        · rwa [hsame]
        · rw [hcut] at hpart
          exact fun hmem => hpart (List.mem_append_left _ hmem)
      | tail _ hl => exact ih List.not_mem_nil hl
    · next hc =>
      apply ih _ hl
      rw [List.mem_append, List.mem_singleton]
      rintro (hmem | heq)
      · exact hpart hmem
      · exact hc heq.symm

/-- A line that ends in no blank has no carriage return to lose. -/
theorem Solid.chomp_eq (h : Solid l) : chomp l = l := by
  rcases chomp_cases l with hsame | hcut
  · exact hsame
  · have hend := h.trimEnd_eq
    rw [hcut, Text.trimEnd_append, if_pos (by decide)] at hend
    have hlength := congrArg List.length hend
    have hpre : trimEnd (chomp l) <+: chomp l := trimEnd_prefix
    have hle := hpre.length_le
    rw [List.length_append, List.length_singleton] at hlength
    omega

theorem linesFrom_append (hp : '\n' ∉ a) (part t : Text) : linesFrom part (a ++ t) = linesFrom (part ++ a) t := by
  induction a generalizing part with
  | nil => rw [List.nil_append, List.append_nil]
  | cons c a ih =>
    obtain ⟨hc, ha⟩ := not_or.mp (List.mem_cons.not.mp hp)
    rw [List.cons_append, linesFrom, if_neg (Ne.symm hc), ih ha, List.append_assoc, List.singleton_append]

theorem linesFrom_follow (h : Solid l) (hls : ∀ l ∈ ls, Solid l) : linesFrom l (follow ls) = l :: ls := by
  induction ls generalizing l with
  | nil => exact if_neg h.ne_nil
  | cons l' ls ih =>
    have hl' := hls l' List.mem_cons_self
    rw [follow_cons, linesFrom, if_pos rfl, h.chomp_eq, linesFrom_append hl'.single, List.nil_append,
      ih hl' fun l hl => hls l (List.mem_cons_of_mem _ hl)]

theorem solid_flush (h : ∀ l ∈ ls, Solid l) : ∀ l ∈ flush ls, Solid l := by
  cases ls with
  | nil => exact h
  | cons l ls =>
    intro l' hl'
    cases hl' with
    | head => exact (h l List.mem_cons_self).dropWhile
    | tail _ hl' => exact h l' (List.mem_cons_of_mem _ hl')

/-- A text of solid lines, trimmed, has these lines. -/
theorem lines_trim_ended (h : ∀ l ∈ ls, Solid l) : lines (trim (ended ls)) = flush ls := by
  cases ls with
  | nil => rfl
  | cons l ls =>
    have hl := h l List.mem_cons_self
    have hls := fun l hl => h l (List.mem_cons_of_mem _ hl)
    rw [trim_ended_cons hl hls, lines, linesFrom_append hl.dropWhile.single, List.nil_append,
      linesFrom_follow hl.dropWhile hls, flush]

theorem trim_ended_flush (h : ∀ l ∈ ls, Solid l) : trim (ended (flush ls)) = trim (ended ls) := by
  cases ls with
  | nil => rfl
  | cons l ls =>
    have hl := h l List.mem_cons_self
    have hls := fun l hl => h l (List.mem_cons_of_mem _ hl)
    have hagain : (l.dropWhile isWhitespace).dropWhile isWhitespace = l.dropWhile isWhitespace :=
      List.dropWhile_idempotent isWhitespace l
    rw [flush, trim_ended_cons hl.dropWhile hls, trim_ended_cons hl hls, hagain]

end Lines

section Breaks

/-- After a blank line nothing is said. -/
def Ends (ls : List Text) : Prop := ∀ before after, ls = before ++ [] :: after → ∀ l ∈ after, l = []

theorem ends_nil_cons : Ends ([] :: ls) ↔ ∀ l ∈ ls, l = [] := by
  constructor
  · exact fun h => h [] ls rfl
  · intro h before after hsplit l hl
    cases before with
    | nil =>
      cases hsplit
      exact h l hl
    | cons _ before =>
      cases hsplit
      exact h l (List.mem_append_right _ (List.mem_cons_of_mem _ hl))

theorem ends_cons (hl : l ≠ []) : Ends (l :: ls) ↔ Ends ls := by
  constructor
  · exact fun h before after hsplit => h (l :: before) after (congrArg (l :: ·) hsplit)
  · intro h before after hsplit
    cases before with
    | nil =>
      cases hsplit
      exact absurd rfl hl
    | cons _ before =>
      cases hsplit
      exact h before after rfl

theorem unbroken_nil_cons : Unbroken ([] :: ls) ↔ Unbroken ls := by
  constructor
  · intro h before after hsplit
    rcases h ([] :: before) after (congrArg ([] :: ·) hsplit) with hbefore | hafter
    · exact .inl fun l hl => hbefore l (List.mem_cons_of_mem _ hl)
    · exact .inr hafter
  · intro h before after hsplit
    cases before with
    | nil => exact .inl fun l hl => absurd hl List.not_mem_nil
    | cons _ before =>
      cases hsplit
      rcases h before after rfl with hbefore | hafter
      · exact .inl (List.forall_mem_cons.mpr ⟨rfl, hbefore⟩)
      · exact .inr hafter

theorem unbroken_cons (hl : l ≠ []) : Unbroken (l :: ls) ↔ Ends ls := by
  constructor
  · intro h before after hsplit
    rcases h (l :: before) after (congrArg (l :: ·) hsplit) with hbefore | hafter
    · exact absurd (hbefore l List.mem_cons_self) hl
    · exact hafter
  · intro h before after hsplit
    cases before with
    | nil =>
      cases hsplit
      exact absurd rfl hl
    | cons _ before =>
      cases hsplit
      exact .inr (h before after rfl)

theorem squeezeFrom_solid (h : ∀ l ∈ ls, Solid l) (blank : Bool) : squeezeFrom blank ls = ls := by
  induction ls generalizing blank with
  | nil => rfl
  | cons l ls ih =>
    rw [squeezeFrom, if_neg (h l List.mem_cons_self).ne_nil, ih fun l hl => h l (List.mem_cons_of_mem _ hl)]

theorem squeezeFrom_blank (h : ∀ l ∈ ls, l = []) : squeezeFrom true ls = [] := by
  induction ls with
  | nil => rfl
  | cons l ls ih =>
    rw [squeezeFrom, if_pos (h l List.mem_cons_self), if_pos rfl, ih fun l hl => h l (List.mem_cons_of_mem _ hl)]

/-- The lines that say something. -/
def said (ls : List Text) : List Text := ls.filter (· ≠ [])

theorem said_nil_cons : said ([] :: ls) = said ls := rfl

theorem said_cons (hl : l ≠ []) : said (l :: ls) = l :: said ls := List.filter_cons_of_pos (decide_eq_true hl)

theorem said_blank (h : ∀ l ∈ ls, l = []) : said ls = [] :=
  List.filter_eq_nil_iff.mpr fun l hl => by simp [h l hl]

variable (h : ∀ l ∈ ls, l = [] ∨ Solid l)
include h

/-- What follows begins with the first line that says something. -/
theorem follow_said (hsaid : ¬ ∀ l ∈ ls, l = []) : ∃ l rest more, Solid l ∧
    trimEnd ('\n' :: ended (squeezeFrom true ls)) = '\n' :: (l ++ rest) ∧
    follow (said ls) = '\n' :: (l ++ more) := by
  induction ls with
  | nil => exact absurd (fun l hl => absurd hl List.not_mem_nil) hsaid
  | cons l ls ih =>
    obtain ⟨hl, hls⟩ := List.forall_mem_cons.mp h
    rcases hl with rfl | hl
    · have hrest : ¬ ∀ l ∈ ls, l = [] := fun hrest => hsaid (List.forall_mem_cons.mpr ⟨rfl, hrest⟩)
      rw [squeezeFrom, if_pos rfl, if_pos rfl, said_nil_cons]
      exact ih hls hrest
    · refine ⟨l, trimEnd ('\n' :: ended (squeezeFrom false ls)), follow (said ls), hl, ?_, ?_⟩
      · rw [squeezeFrom, if_neg hl.ne_nil, ended_cons, hl.trimEnd_cons]
      · rw [said_cons hl.ne_nil, follow_cons]

theorem trimEnd_squeeze_iff : trimEnd ('\n' :: ended (squeeze ls)) = follow (said ls) ↔ Ends ls := by
  induction ls with
  | nil =>
    refine iff_of_true (by decide) fun before after hsplit => ?_
    cases before <;> cases hsplit
  | cons l ls ih =>
    obtain ⟨hl, hls⟩ := List.forall_mem_cons.mp h
    rcases hl with rfl | hl
    · rw [ends_nil_cons, said_nil_cons, squeeze, squeezeFrom, if_pos rfl, if_neg Bool.false_ne_true, ended_cons,
        List.nil_append]
      by_cases hblank : ∀ l ∈ ls, l = []
      · rw [squeezeFrom_blank hblank, said_blank hblank]
        exact iff_of_true (by decide) hblank
      · obtain ⟨l, rest, more, hl, htrim, hfollow⟩ := follow_said hls hblank
        refine iff_of_false ?_ hblank
        have htwo : trimEnd ('\n' :: '\n' :: ended (squeezeFrom true ls)) = '\n' :: '\n' :: (l ++ rest) := by
          have happ := trimEnd_append (t := ['\n']) (u := '\n' :: ended (squeezeFrom true ls))
          rw [htrim, if_neg (List.cons_ne_nil _ _)] at happ
          exact happ
        rw [htwo, hfollow]
        intro heq
        exact hl.head_ne more (l ++ rest) (List.cons.inj heq).2.symm
    · rw [ends_cons hl.ne_nil, said_cons hl.ne_nil, squeeze, squeezeFrom, if_neg hl.ne_nil, ended_cons,
        hl.trimEnd_cons, follow_cons, ← squeeze, List.cons.injEq, List.append_right_inj, and_iff_right rfl]
      exact ih hls

/-- Blank lines can be left out where none of them stands between lines that say something. -/
theorem trim_squeezeFrom_iff (blank : Bool) :
    trim (ended (squeezeFrom blank ls)) = trim (ended (said ls)) ↔ Unbroken ls := by
  induction ls generalizing blank with
  | nil =>
    refine iff_of_true rfl fun before after hsplit => ?_
    cases before <;> cases hsplit
  | cons l ls ih =>
    obtain ⟨hl, hls⟩ := List.forall_mem_cons.mp h
    rcases hl with rfl | hl
    · have hskip : trim (ended (squeezeFrom blank ([] :: ls))) = trim (ended (squeezeFrom true ls)) := by
        rw [squeezeFrom, if_pos rfl]
        split <;> rfl
      rw [unbroken_nil_cons, said_nil_cons, hskip]
      exact ih hls true
    · have hsaid : ∀ l ∈ said ls, Solid l := by
        intro l hl
        obtain ⟨hmem, hne⟩ := List.mem_filter.mp hl
        exact (hls l hmem).resolve_left (of_decide_eq_true hne)
      rw [unbroken_cons hl.ne_nil, said_cons hl.ne_nil, squeezeFrom, if_neg hl.ne_nil, ended_cons, ended_cons,
        hl.trim_append, hl.trim_append, List.append_right_inj, trimEnd_newline_ended hsaid, ← squeeze]
      exact trimEnd_squeeze_iff hls

end Breaks

end Lib.Text
