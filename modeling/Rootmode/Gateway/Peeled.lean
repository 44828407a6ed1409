import Rootmode.Gateway.Peel
import Rootmode.Lib.Layout
import Rootmode.Lib.Search
import Mathlib.Logic.Relation

namespace Rootmode.Gateway

open Lib Lib.Text
open Lib.Search (At)

def think : Text × Text := ("<think>".toList, "</think>".toList)

def thinking : Text × Text := ("<thinking>".toList, "</thinking>".toList)

/-- A text up to the blanks at the end of its lines and around it, and blank lines beyond the first. -/
def reduced (t : Text) : Text := trim (ended (squeeze ((lines t).map trimEnd)))

/-- An opening tag, and its closing tag after it. -/
def Paired (tag : Text × Text) (t : Text) : Prop :=
  ∃ start, findIgnoreAsciiCase tag.1 t = some start ∧
    (findIgnoreAsciiCase tag.2 (t.drop (start + tag.1.length))).isSome

/-- What a text is peeled to is peeled, and is all of a text that there is nothing to peel of. -/
structure Peels (t : Text) : Prop where
  again : peelThinking (peelThinking t) = peelThinking t
  unpaired : ∀ tag ∈ thinkingTags, ¬ Paired tag (peelThinking t)
  kept : (∀ tag ∈ thinkingTags, findIgnoreAsciiCase tag.1 t = none) → reduced (peelThinking t) = reduced t

/-- One time round the loop over a tag. -/
def Cuts (tag : Text × Text) (t u : Text) : Prop :=
  ∃ start rel, findIgnoreAsciiCase tag.1 t = some start ∧
    findIgnoreAsciiCase tag.2 (t.drop (start + tag.1.length)) = some rel ∧ u = cutOnce tag t start rel

/-- No block that the second loop takes out has around it what makes a tag of the first. -/
def Seamless (t : Text) : Prop :=
  ∀ u v, Relation.ReflTransGen (Cuts thinking) t u → Cuts thinking u v → findIgnoreAsciiCase think.1 v = none

/-- No blank line stands between two lines that are not blank. -/
def NoBreak (t : Text) : Prop := Unbroken ((lines t).map trimEnd)

variable {tag : Text × Text} {needle t u v w : Text} {start rel i : ℕ}

section Find

theorem findIgnoreAsciiCase_eq (needle hay : Text) :
    findIgnoreAsciiCase needle hay = Search.find (lower needle) (lower hay) := by
  induction hay with
  | nil => rfl
  | cons c hay ih =>
    have hhere : eqIgnoreAsciiCase ((c :: hay).take needle.length) needle =
        (lower needle).isPrefixOf (lower (c :: hay)) := by
      rw [Bool.eq_iff_iff, eqIgnoreAsciiCase_iff, List.isPrefixOf_iff_prefix, List.prefix_iff_eq_take]
      simp only [lower, List.length_map, List.map_take]
      exact eq_comm
    rw [findIgnoreAsciiCase, hhere, ih]
    rfl

theorem lower_append (t u : Text) : lower (t ++ u) = lower t ++ lower u := List.map_append

theorem lower_drop (t : Text) (i : ℕ) : lower (t.drop i) = (lower t).drop i := List.map_drop

theorem length_lower (t : Text) : (lower t).length = t.length := List.length_map _

theorem lower_ne_nil (h : needle ≠ []) : lower needle ≠ [] := List.map_eq_nil_iff.not.mpr h

theorem find_none_iff (h : needle ≠ []) :
    findIgnoreAsciiCase needle t = none ↔ ∀ i, ¬ At (lower needle) (lower t) i := by
  rw [findIgnoreAsciiCase_eq, Search.find_eq_none (lower_ne_nil h)]

theorem find_ne_none_iff (h : needle ≠ []) :
    findIgnoreAsciiCase needle t ≠ none ↔ ∃ i, At (lower needle) (lower t) i := by
  rw [Ne, find_none_iff h]
  push Not
  rfl

theorem find_eq_none_iff (h : needle ≠ []) :
    findIgnoreAsciiCase needle t = none ↔ ∀ mid, lower mid = lower needle → ¬ mid <:+: t := by
  rw [find_none_iff h]
  constructor
  · rintro hnone mid hmid ⟨before, after, rfl⟩
    refine hnone before.length ⟨lower after, ?_⟩
    rw [← hmid, ← lower_append, ← lower_drop, List.append_assoc, List.drop_left]
  · rintro hnone i ⟨after, hafter⟩
    rw [← lower_drop] at hafter
    obtain ⟨mid, rest, hsplit, hmid, -⟩ := List.map_eq_append_iff.mp hafter.symm
    refine hnone mid hmid ?_
    have hprefix : mid <+: t.drop i := ⟨rest, hsplit.symm⟩
    exact hprefix.isInfix.trans (List.drop_suffix i t).isInfix

/-- Nothing is found before the first. -/
theorem find_take_none (h : needle ≠ []) (hfind : findIgnoreAsciiCase needle t = some start) :
    findIgnoreAsciiCase needle (t.take start) = none := by
  rw [find_none_iff h]
  intro i hat
  have hbound := hat.bound (lower_ne_nil h)
  have hpos := List.length_pos_iff.mpr (lower_ne_nil h)
  have hfirst : At (lower needle) (lower (t.take start) ++ lower (t.drop start)) i := hat.append (lower_ne_nil h)
  rw [← lower_append, List.take_append_drop] at hfirst
  rw [findIgnoreAsciiCase_eq] at hfind
  rw [length_lower, length_lower, List.length_take] at hbound
  rw [length_lower] at hpos
  exact (Search.find_some hfind).2 i (by omega) hfirst

theorem find_prefix_none (h : needle ≠ []) (hpre : u <+: t) (hnone : findIgnoreAsciiCase needle t = none) :
    findIgnoreAsciiCase needle u = none := by
  rw [find_eq_none_iff h] at hnone ⊢
  exact fun mid hmid hwithin => hnone mid hmid (hwithin.trans hpre.isInfix)

end Find

section Pass

/-- A pass leaves no opening tag. -/
theorem find_withoutTag (htag : tag.1 ≠ []) (t : Text) : findIgnoreAsciiCase tag.1 (withoutTag tag t) = none := by
  induction hn : t.length using Nat.strong_induction_on generalizing t with
  | _ n ih =>
    cases hstart : findIgnoreAsciiCase tag.1 t with
    | none => rwa [withoutTag_none hstart]
    | some start =>
      cases hrel : findIgnoreAsciiCase tag.2 (t.drop (start + tag.1.length)) with
      | none =>
        rw [withoutTag_open hstart hrel]
        exact find_take_none htag hstart
      | some rel =>
        rw [withoutTag_cut htag hstart hrel]
        exact ih _ (hn ▸ cutOnce_length htag hstart rel) _ rfl

theorem withoutTag_length_le (htag : tag.1 ≠ []) (t : Text) : (withoutTag tag t).length ≤ t.length := by
  induction hn : t.length using Nat.strong_induction_on generalizing t with
  | _ n ih =>
    cases hstart : findIgnoreAsciiCase tag.1 t with
    | none => rw [withoutTag_none hstart, hn]
    | some start =>
      cases hrel : findIgnoreAsciiCase tag.2 (t.drop (start + tag.1.length)) with
      | none =>
        rw [withoutTag_open hstart hrel, List.length_take, hn]
        exact min_le_right _ _
      | some rel =>
        have hshort := cutOnce_length htag hstart rel
        rw [withoutTag_cut htag hstart hrel]
        exact (ih _ (hn ▸ hshort) _ rfl).trans (hn ▸ hshort.le)

theorem withoutTag_length_lt (htag : tag.1 ≠ []) (hstart : findIgnoreAsciiCase tag.1 t = some start) :
    (withoutTag tag t).length < t.length := by
  have hbound := findIgnoreAsciiCase_bound hstart
  have hpos := List.length_pos_iff.mpr htag
  cases hrel : findIgnoreAsciiCase tag.2 (t.drop (start + tag.1.length)) with
  | none =>
    rw [withoutTag_open hstart hrel, List.length_take]
    omega
  | some rel =>
    rw [withoutTag_cut htag hstart hrel]
    exact (withoutTag_length_le htag _).trans_lt (cutOnce_length htag hstart rel)

theorem think_ne : think.1 ≠ [] := by decide

theorem thinking_ne : thinking.1 ≠ [] := by decide

theorem withoutThinking_eq (t : Text) : withoutThinking t = withoutTag thinking (withoutTag think t) := rfl

/-- A tag that removing a block makes stays to the end of the loop. -/
theorem find_think_withoutTag (hnone : findIgnoreAsciiCase think.1 u = none)
    (hstart : findIgnoreAsciiCase thinking.1 u = some start)
    (hmade : findIgnoreAsciiCase think.1 (cutOnce thinking u start rel) ≠ none) :
    findIgnoreAsciiCase think.1 (withoutTag thinking (cutOnce thinking u start rel)) ≠ none := by
  obtain ⟨i, hat⟩ := (find_ne_none_iff think_ne).mp hmade
  set v := cutOnce thinking u start rel with hv
  have hlen : (lower think.1).length = 7 := by decide
  have hlen' : (lower thinking.1).length = 10 := by decide
  have hbound := hat.bound (lower_ne_nil think_ne)
  have hstart' := findIgnoreAsciiCase_bound hstart
  rw [hlen, length_lower] at hbound
  have htake : (u.take start).length = start := by
    rw [List.length_take]
    omega
  -- it begins before the place of the block
  have hbefore : i < start := by
    by_contra hafter
    have hinside : At (lower think.1) (lower (u.drop (start + thinking.1.length + rel + thinking.2.length)))
        (i - start) := by
      rw [At, hv, cutOnce, ← lower_drop, List.drop_append, List.drop_of_length_le (by omega), List.nil_append,
        htake, lower_drop] at hat
      exact hat
    have hwhole := (find_none_iff think_ne).mp hnone
      (start + thinking.1.length + rel + thinking.2.length + (i - start))
    rw [At, ← List.drop_drop, ← lower_drop] at hwhole
    exact hwhole hinside
  -- up to its end there is nothing of the other kind
  set r := v.take (i + 7) with hr
  have hrlen : (lower r).length = i + 7 := by
    rw [length_lower, hr, List.length_take]
    omega
  have hrat : At (lower think.1) (lower r) i := by
    have hsplit : lower v = lower r ++ lower (v.drop (i + 7)) := by
      rw [← lower_append, List.take_append_drop]
    rw [hsplit] at hat
    exact hat.of_append (by omega)
  have hother : findIgnoreAsciiCase thinking.1 r = none := by
    rw [find_none_iff thinking_ne]
    intro j hj
    have hjbound := hj.bound (lower_ne_nil thinking_ne)
    rw [hlen', hrlen] at hjbound
    by_cases hfront : j + 10 ≤ start
    · have hnot := (find_none_iff thinking_ne).mp (find_take_none thinking_ne hstart) j
      have hvat : At (lower thinking.1) (lower r ++ lower (v.drop (i + 7))) j := hj.append (lower_ne_nil thinking_ne)
      rw [← lower_append, List.take_append_drop, hv, cutOnce, lower_append] at hvat
      exact hnot (hvat.of_append (by rw [length_lower (u.take start), htake, hlen']; exact hfront))
    · -- the bracket of the one would stand within the other
      have hbracket := hrat.getElem? (k := 0) (by decide)
      have hwithin := hj.getElem? (k := i - j) (by omega)
      rw [Nat.add_sub_cancel' (by omega), ← Nat.add_zero i, hbracket] at hwithin
      have honly : ∀ k < 10, 0 < k → (lower thinking.1)[k]? ≠ (lower think.1)[0]? := by decide
      exact honly (i - j) (by omega) (by omega) hwithin.symm
  have hends : ¬ EndsInside thinking.1 r := by
    rintro ⟨part, hne, hsuffix, hshort, heq⟩
    rw [eqIgnoreAsciiCase_iff] at heq
    have hclose : lower r = (lower r).take i ++ "<think".toList ++ ['>'] := by
      have hdrop : (lower r).drop i = lower think.1 := by
        refine (hrat.eq_of_length ?_).symm
        rw [List.length_drop, hlen, hrlen]
        omega
      have hsplit := List.take_append_drop i (lower r)
      rw [hdrop] at hsplit
      rw [List.append_assoc]
      exact hsplit.symm
    have hlast : '>' ∈ lower part := by
      have hlow : lower part <:+ lower r := hsuffix.map Char.toLower
      rw [hclose, List.suffix_concat_iff] at hlow
      rcases hlow with hnil | ⟨init, hinit, -⟩
      · exact absurd (List.map_eq_nil_iff.mp hnil) hne
      · rw [hinit]
        exact List.mem_append_right _ (List.mem_singleton_self _)
    have hopen : ∀ n < 10, '>' ∉ lower (thinking.1.take n) := by decide
    rw [heq] at hlast
    exact hopen part.length hshort hlast
  have hkeep := withoutTag_append thinking thinking_ne r (v.drop (i + 7)) (by rwa [withoutTag_none hother])
  rw [withoutTag_none hother, hr, List.take_append_drop] at hkeep
  intro hgone
  exact (find_none_iff think_ne).mp (find_prefix_none think_ne hkeep hgone) i hrat

theorem Cuts.unique (h : Cuts tag t u) (h' : Cuts tag t v) : u = v := by
  obtain ⟨start, rel, hstart, hrel, rfl⟩ := h
  obtain ⟨start', rel', hstart', hrel', rfl⟩ := h'
  cases hstart.symm.trans hstart'
  cases hrel.symm.trans hrel'
  rfl

/-- The loop over the second tag leaves none of the first exactly when it never makes one. -/
theorem seamless_iff (hnone : findIgnoreAsciiCase think.1 t = none) :
    findIgnoreAsciiCase think.1 (withoutTag thinking t) = none ↔ Seamless t := by
  induction hn : t.length using Nat.strong_induction_on generalizing t with
  | _ n ih =>
    have hstuck (hdone : ∀ u, ¬ Cuts thinking t u) : Seamless t := by
      intro u v hreach hcut
      rcases hreach.cases_head with rfl | ⟨first, hfirst, -⟩
      · exact absurd hcut (hdone v)
      · exact absurd hfirst (hdone first)
    cases hstart : findIgnoreAsciiCase thinking.1 t with
    | none =>
      rw [withoutTag_none hstart]
      refine iff_of_true hnone (hstuck ?_)
      rintro u ⟨start, rel, hfind, -⟩
      rw [hstart] at hfind
      cases hfind
    | some start =>
      cases hrel : findIgnoreAsciiCase thinking.2 (t.drop (start + thinking.1.length)) with
      | none =>
        rw [withoutTag_open hstart hrel]
        refine iff_of_true (find_prefix_none think_ne (List.take_prefix _ _) hnone) (hstuck ?_)
        rintro u ⟨start', rel, hfind, hclose, -⟩
        cases hstart.symm.trans hfind
        rw [hrel] at hclose
        cases hclose
      | some rel =>
        have hcut : Cuts thinking t (cutOnce thinking t start rel) := ⟨start, rel, hstart, hrel, rfl⟩
        have hshort := cutOnce_length thinking_ne hstart rel
        rw [withoutTag_cut thinking_ne hstart hrel]
        cases hmade : findIgnoreAsciiCase think.1 (cutOnce thinking t start rel) with
        | none =>
          rw [ih _ (hn ▸ hshort) hmade rfl]
          constructor
          · intro h u v hreach hnext
            rcases hreach.cases_head with rfl | ⟨first, hfirst, hrest⟩
            · rwa [hnext.unique hcut]
            · cases hfirst.unique hcut
              exact h u v hrest hnext
          · exact fun h u v hreach => h u v (hreach.head hcut)
        | some i =>
          refine iff_of_false (find_think_withoutTag hnone hstart (by rw [hmade]; exact Option.some_ne_none i)) ?_
          intro h
          have hfalse := h t _ .refl hcut
          rw [hmade] at hfalse
          cases hfalse

end Pass

section Collapse

variable {c : Collapsed} {ls : List Text} {l : Text}

theorem solid_or_nil (t : Text) : ∀ l ∈ (lines t).map trimEnd, l = [] ∨ Solid l := by
  intro l hl
  obtain ⟨line, hline, rfl⟩ := List.mem_map.mp hl
  by_cases hblank : trimEnd line = []
  · exact .inl hblank
  · have hsingle : '\n' ∉ line := newline_not_mem_linesFrom List.not_mem_nil hline
    have hpre : trimEnd line <+: line := trimEnd_prefix
    exact .inr ⟨fun hmem => hsingle (hpre.subset hmem), hblank, trimEnd_trimEnd⟩

theorem solid_said (h : ∀ l ∈ ls, l = [] ∨ Solid l) : ∀ l ∈ said ls, Solid l := by
  intro l hl
  obtain ⟨hmem, hne⟩ := List.mem_filter.mp hl
  exact (h l hmem).resolve_left (of_decide_eq_true hne)

theorem said_solid (h : ∀ l ∈ ls, Solid l) : said ls = ls :=
  List.filter_eq_self.mpr fun l hl => decide_eq_true (h l hl).ne_nil

theorem map_trimEnd_solid (h : ∀ l ∈ ls, Solid l) : ls.map trimEnd = ls :=
  (List.map_congr_left fun l hl => (h l hl).trimEnd_eq).trans (List.map_id' ls)

theorem line_trimEnd (c : Collapsed) (line : Text) : c.line (trimEnd line) = c.line line := by
  have hblank : trim (trimEnd line) = [] ↔ trim line = [] := by
    rw [trim_eq_nil, trim_eq_nil, ← trimEnd_eq_nil, ← trimEnd_eq_nil, trimEnd_trimEnd]
  unfold Collapsed.line
  rw [trimEnd_trimEnd]
  by_cases h : trim line = []
  · rw [if_pos h, if_pos (hblank.mpr h)]
  · rw [if_neg h, if_neg (hblank.not.mpr h)]

theorem foldl_trimEnd (c : Collapsed) (ls : List Text) :
    (ls.map trimEnd).foldl Collapsed.line c = ls.foldl Collapsed.line c := by
  induction ls generalizing c with
  | nil => rfl
  | cons l ls ih => rw [List.map_cons, List.foldl_cons, List.foldl_cons, line_trimEnd, ih]

/-- What is collapsed of some lines: these, and the end of the last where blank lines came after it. -/
def Laid (c : Collapsed) (ls : List Text) : Prop :=
  (ls = [] ∧ c.out = []) ∨ ∃ init l, ls = init ++ [l] ∧ Solid l ∧
    (c.out = ended init ++ l ∧ c.blank = 0 ∨ c.out = ended (init ++ [l]) ∧ 0 < c.blank)

theorem ended_concat (init : List Text) (l : Text) : ended (init ++ [l]) = ended init ++ l ++ ['\n'] := by
  rw [ended, List.flatMap_append, List.flatMap_singleton, ← ended, List.append_assoc]

theorem Laid.blank (h : Laid c ls) : Laid (c.line []) ls := by
  have htrim : trim [] = [] := rfl
  rw [Collapsed.line, if_pos htrim]
  rcases h with ⟨hls, hout⟩ | ⟨init, l, hls, hl, ⟨hout, hblank⟩ | ⟨hout, hblank⟩⟩
  · exact .inl ⟨hls, by simp [hout]⟩
  · refine .inr ⟨init, l, hls, hl, .inr ?_⟩
    have hne : ended init ++ l ≠ [] := fun hnil => hl.ne_nil (List.append_eq_nil_iff.mp hnil).2
    dsimp only
    rw [hblank, hout, if_pos ⟨by decide, hne⟩, ended_concat]
    exact ⟨rfl, by decide⟩
  · refine .inr ⟨init, l, hls, hl, .inr ?_⟩
    dsimp only
    rw [if_neg (by omega)]
    exact ⟨hout, by omega⟩

theorem Laid.solid (h : Laid c ls) (hl : Solid l) : Laid (c.line l) (ls ++ [l]) := by
  have hsays : trim l ≠ [] := by
    rw [Ne, trim_eq_nil, ← trimEnd_eq_nil, hl.trimEnd_eq]
    exact hl.ne_nil
  rw [Collapsed.line, if_neg hsays, hl.trimEnd_eq]
  refine .inr ⟨ls, l, rfl, hl, .inl ⟨?_, rfl⟩⟩
  rcases h with ⟨hls, hout⟩ | ⟨init, last, hls, hlast, ⟨hout, -⟩ | ⟨hout, -⟩⟩
  · rw [hls, hout]
    rfl
  · have hend : (ended init ++ last).getLast? ≠ some '\n' := by
      rw [List.getLast?_append_of_ne_nil _ hlast.ne_nil]
      exact fun heq => hlast.single (List.mem_of_getLast? heq)
    have hne : ended init ++ last ≠ [] := fun hnil => hlast.ne_nil (List.append_eq_nil_iff.mp hnil).2
    rw [hout, if_pos ⟨hne, hend⟩, hls, ended_concat]
  · have hend : (ended (init ++ [last])).getLast? = some '\n' := by
      rw [ended_concat]
      exact List.getLast?_concat
    rw [hout, if_neg fun hopen => hopen.2 hend, hls]

theorem Laid.foldl (h : Laid c ls) {more : List Text} (hmore : ∀ l ∈ more, l = [] ∨ Solid l) :
    Laid (more.foldl Collapsed.line c) (ls ++ said more) := by
  induction more generalizing c ls with
  | nil => rwa [said, List.filter_nil, List.append_nil]
  | cons l more ih =>
    obtain ⟨hl, hrest⟩ := List.forall_mem_cons.mp hmore
    rcases hl with rfl | hl
    · exact ih h.blank hrest
    · have hrest := ih (h.solid hl) hrest
      rwa [List.append_assoc, List.singleton_append, ← said_cons hl.ne_nil] at hrest

theorem trim_concat_newline (t : Text) : trim (t ++ ['\n']) = trim t := by
  rw [trim_eq, trim_eq, List.dropWhile_append]
  split
  · next hnil =>
    rw [List.isEmpty_iff] at hnil
    rw [hnil]
    rfl
  · exact List.rdropWhile_concat_pos _ _ _ isWhitespace_newline

theorem Laid.trim_out (h : Laid c ls) : trim c.out = trim (ended ls) := by
  rcases h with ⟨hls, hout⟩ | ⟨init, l, hls, hl, ⟨hout, -⟩ | ⟨hout, -⟩⟩
  · rw [hls, hout]
    rfl
  · rw [hls, hout, ended_concat, trim_concat_newline]
  · rw [hls, hout]

/-- The blank lines are all left out. -/
theorem collapseBlankLines_eq (t : Text) :
    collapseBlankLines t = trim (ended (said ((lines t).map trimEnd))) := by
  have hstart : Laid {} [] := .inl ⟨rfl, rfl⟩
  have hlaid := hstart.foldl (solid_or_nil t)
  rw [foldl_trimEnd, List.nil_append] at hlaid
  exact hlaid.trim_out

/-- The lines of what a text is collapsed to. -/
theorem lines_collapse (t : Text) : (lines (collapseBlankLines t)).map trimEnd =
    flush (said ((lines t).map trimEnd)) := by
  have hsaid := solid_said (solid_or_nil t)
  rw [collapseBlankLines_eq, lines_trim_ended hsaid, map_trimEnd_solid (solid_flush hsaid)]

theorem collapse_collapse (t : Text) : collapseBlankLines (collapseBlankLines t) = collapseBlankLines t := by
  have hsaid := solid_said (solid_or_nil t)
  rw [collapseBlankLines_eq (collapseBlankLines t), lines_collapse, said_solid (solid_flush hsaid),
    trim_ended_flush hsaid, ← collapseBlankLines_eq]

theorem reduced_collapse (t : Text) : reduced (collapseBlankLines t) = collapseBlankLines t := by
  have hsaid := solid_said (solid_or_nil t)
  rw [reduced, lines_collapse, squeeze, squeezeFrom_solid (solid_flush hsaid), trim_ended_flush hsaid,
    ← collapseBlankLines_eq]

theorem collapse_eq_reduced_iff (t : Text) : collapseBlankLines t = reduced t ↔ NoBreak t := by
  rw [collapseBlankLines_eq, reduced, NoBreak, squeeze, eq_comm]
  exact trim_squeezeFrom_iff (solid_or_nil t) false

theorem isWhitespace_toLower {c : Char} (h : isWhitespace c = true) : c.toLower = c := by
  refine dif_neg ?_
  rintro ⟨hlow, hhigh⟩
  have hlow' := UInt32.le_iff_toNat_le.mp hlow
  have hhigh' := UInt32.le_iff_toNat_le.mp hhigh
  have hA : 'A'.val.toNat = 65 := rfl
  have hZ : 'Z'.val.toNat = 90 := rfl
  rw [isWhitespace, decide_eq_true_iff] at h
  unfold Char.toNat at h
  omega

/-- Collapsing makes no tag and breaks none. -/
theorem find_collapse (hneedle : needle ≠ []) (hword : ∀ c ∈ lower needle, isWhitespace c = false) (t : Text) :
    findIgnoreAsciiCase needle (collapseBlankLines t) = none ↔ findIgnoreAsciiCase needle t = none := by
  rw [find_eq_none_iff hneedle, find_eq_none_iff hneedle]
  apply forall_congr'
  intro mid
  apply imp_congr_right
  intro hmid
  have hne : mid ≠ [] := by
    rintro rfl
    exact lower_ne_nil hneedle hmid.symm
  have hw : ∀ c ∈ mid, isWhitespace c = false := by
    intro c hc
    by_contra hblank
    have hspace := Bool.not_eq_false _ ▸ hblank
    have hlow := hword c.toLower (hmid ▸ List.mem_map_of_mem hc)
    rw [isWhitespace_toLower hspace, hspace] at hlow
    cases hlow
  rw [not_iff_not, collapseBlankLines_eq, infix_trim hw hne, infix_ended hw hne, ← infix_lines hw hne]
  constructor
  · rintro ⟨l, hl, hwithin⟩
    obtain ⟨line, hline, rfl⟩ := List.mem_map.mp (List.mem_filter.mp hl).1
    exact ⟨line, hline, (infix_trimEnd hw hne).mp hwithin⟩
  · rintro ⟨line, hline, hwithin⟩
    rw [← infix_trimEnd hw hne] at hwithin
    refine ⟨trimEnd line, List.mem_filter.mpr ⟨List.mem_map_of_mem hline, decide_eq_true ?_⟩, hwithin⟩
    intro hnil
    rw [hnil, List.infix_nil] at hwithin
    exact hne hwithin

theorem ended_length_linesFrom (part t : Text) : (ended (linesFrom part t)).length ≤ part.length + t.length + 1 := by
  induction t generalizing part with
  | nil =>
    unfold linesFrom
    split
    · exact Nat.zero_le _
    · rw [ended, List.flatMap_singleton, List.length_append]
      exact le_rfl
  | cons c t ih =>
    unfold linesFrom
    split
    · have hrest := ih []
      have hchomp : (chomp part).length ≤ part.length := by
        rcases chomp_cases part with hsame | hcut
        · rw [hsame]
        · have hlength := congrArg List.length hcut
          rw [List.length_append] at hlength
          omega
      simp only [ended_cons, List.length_append, List.length_cons, List.length_nil] at hrest ⊢
      omega
    · have hrest := ih (part ++ [c])
      simp only [List.length_append, List.length_cons, List.length_nil] at hrest ⊢
      omega

theorem ended_length_said (ls : List Text) : (ended (said (ls.map trimEnd))).length ≤ (ended ls).length := by
  induction ls with
  | nil => exact le_rfl
  | cons l ls ih =>
    have hpre : trimEnd l <+: l := trimEnd_prefix
    have hline := hpre.length_le
    have hlength : (ended (l :: ls)).length = l.length + ((ended ls).length + 1) := by
      rw [ended_cons, List.length_append, List.length_cons]
    rw [List.map_cons]
    by_cases hblank : trimEnd l = []
    · rw [hblank, said_nil_cons]
      omega
    · rw [said_cons hblank, ended_cons, List.length_append, List.length_cons]
      omega

/-- Collapsing makes no text longer. -/
theorem collapse_length_le (t : Text) : (collapseBlankLines t).length ≤ t.length := by
  have hsaid := solid_said (solid_or_nil t)
  have hlines := (ended_length_said (lines t)).trans (ended_length_linesFrom [] t)
  rw [List.length_nil, Nat.zero_add] at hlines
  rw [collapseBlankLines_eq]
  cases hls : said ((lines t).map trimEnd) with
  | nil => exact Nat.zero_le _
  | cons l ls =>
    rw [hls] at hsaid hlines
    obtain ⟨hl, hrest⟩ := List.forall_mem_cons.mp hsaid
    have hdrop := (List.dropWhile_sublist isWhitespace (l := l)).length_le
    have hfollow : (follow ls).length = (ended ls).length := by
      have heq := congrArg List.length (trimEnd_newline_ended hrest)
      rw [follow, ended, List.length_flatMap, List.length_flatMap]
      simp
    rw [trim_ended_cons hl hrest, List.length_append, hfollow]
    rw [ended_cons, List.length_append, List.length_cons] at hlines
    omega

end Collapse

section Law

theorem thinking_word : ∀ c ∈ lower thinking.1, isWhitespace c = false := by
  have hall : (lower thinking.1).all (fun c => !isWhitespace c) = true := by decide
  simpa only [List.all_eq_true, Bool.not_eq_true'] using hall

theorem think_word : ∀ c ∈ lower think.1, isWhitespace c = false := by
  have hall : (lower think.1).all (fun c => !isWhitespace c) = true := by decide
  simpa only [List.all_eq_true, Bool.not_eq_true'] using hall

theorem find_thinking_peel (t : Text) : findIgnoreAsciiCase thinking.1 (peelThinking t) = none :=
  (find_collapse thinking_ne thinking_word _).mpr (find_withoutTag thinking_ne _)

theorem find_think_peel_iff (t : Text) :
    findIgnoreAsciiCase think.1 (peelThinking t) = none ↔ Seamless (withoutTag think t) := by
  rw [peelThinking, find_collapse think_ne think_word, withoutThinking_eq]
  exact seamless_iff (find_withoutTag think_ne t)

theorem withoutThinking_none (h : ∀ tag ∈ thinkingTags, findIgnoreAsciiCase tag.1 t = none) :
    withoutThinking t = t := by
  have hthink := withoutTag_none (h think (List.mem_cons_self))
  have hthinking := withoutTag_none (h thinking (List.mem_cons_of_mem _ List.mem_cons_self))
  rw [withoutThinking_eq, hthink, hthinking]

/-- Peeling changes nothing once there is nothing to peel. -/
theorem peel_peel_iff (t : Text) : peelThinking (peelThinking t) = peelThinking t ↔
    findIgnoreAsciiCase think.1 (peelThinking t) = none := by
  constructor
  · intro heq
    cases hfind : findIgnoreAsciiCase think.1 (peelThinking t) with
    | none => rfl
    | some start =>
      have hcollapse := collapse_length_le (withoutThinking (peelThinking t))
      have hsecond := withoutTag_length_le thinking_ne (withoutTag think (peelThinking t))
      have hfirst := withoutTag_length_lt think_ne hfind
      rw [← withoutThinking_eq] at hsecond
      rw [← peelThinking, heq] at hcollapse
      omega
  · intro hnone
    have hall : ∀ tag ∈ thinkingTags, findIgnoreAsciiCase tag.1 (peelThinking t) = none :=
      List.forall_mem_cons.mpr ⟨hnone, List.forall_mem_cons.mpr
        ⟨find_thinking_peel t, fun tag htag => absurd htag List.not_mem_nil⟩⟩
    rw [peelThinking, withoutThinking_none hall, peelThinking, collapse_collapse]

theorem kept_iff (h : ∀ tag ∈ thinkingTags, findIgnoreAsciiCase tag.1 t = none) :
    reduced (peelThinking t) = reduced t ↔ NoBreak t := by
  rw [peelThinking, withoutThinking_none h, reduced_collapse, collapse_eq_reduced_iff]

/-- Peeling is to be relied on exactly for the texts where taking out blocks of the second kind makes no tag
of the first, and where, if there is nothing to take out, no blank line stands between two others. -/
theorem peels_iff (t : Text) : Peels t ↔ Seamless (withoutTag think t) ∧
    ((∀ tag ∈ thinkingTags, findIgnoreAsciiCase tag.1 t = none) → NoBreak t) := by
  rw [← find_think_peel_iff]
  constructor
  · rintro ⟨hagain, -, hkept⟩
    exact ⟨(peel_peel_iff t).mp hagain, fun h => (kept_iff h).mp (hkept h)⟩
  · rintro ⟨hthink, hbreak⟩
    refine ⟨(peel_peel_iff t).mpr hthink, ?_, fun h => (kept_iff h).mpr (hbreak h)⟩
    rintro tag htag ⟨start, hstart, -⟩
    have hnone : findIgnoreAsciiCase tag.1 (peelThinking t) = none := by
      rcases List.mem_cons.mp htag with rfl | htag
      · exact hthink
      · rw [List.mem_singleton.mp htag]
        exact find_thinking_peel t
    rw [hnone] at hstart
    cases hstart

/-- A paragraph break is lost, and a tag that a block inside it hid is left in. -/
theorem not_peels : ¬ Peels "a\n\nb".toList ∧
    ¬ Peels "<thi<thinking></thinking>nk>secret</think>".toList := by
  constructor
  · intro h
    exact absurd (h.kept (by decide)) (by decide)
  · intro h
    exact absurd h.again (by decide)

end Law

end Rootmode.Gateway
