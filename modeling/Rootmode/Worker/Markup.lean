import Rootmode.Lib.Search
import Rootmode.Lib.Text

namespace Rootmode.Worker

open Lib Lib.Search

def dsmlMark : Text := "｜DSML｜".toList

def toolCallOpen : Text := "<tool_call".toList

/-- Where native tool markup starts, if it does. -/
def markupStart (s : Text) : Option ℕ :=
  let dsml := (find dsmlMark s).map fun i => (rfind ['<'] (s.take i)).getD i
  let xml := find toolCallOpen s
  match dsml, xml with
  | some a, some b => some (min a b)
  | some a, none => some a
  | none, some b => some b
  | none, none => none

/-- What of a piece is still ordinary answer text. -/
def markupVisibleDelta (previous added : Text) : Text :=
  if (markupStart previous).isSome then []
  else
    let combined := previous ++ added
    match markupStart combined with
    | none => added
    | some start => if start ≤ previous.length then [] else (combined.take start).drop previous.length

/-- The text so far, and what was shown of it. -/
def showDelta (shown : Text × Text) (content : Text) : Text × Text :=
  let visible := markupVisibleDelta shown.1 content
  (shown.1 ++ content, shown.2 ++ visible)

def visibleDeltas (deltas : List Text) : Text := (deltas.foldl showDelta ([], [])).2

/-- A text up to its markup. -/
def beforeMarkup (s : Text) : Text := s.take ((markupStart s).getD s.length)

/-- No piece ends after the markup of the text has started and before a first mark is whole. -/
def NoneCut (deltas : List Text) : Prop :=
  ∀ front, front <+: deltas → markupStart front.flatten = none →
    ∀ start ∈ markupStart deltas.flatten, front.flatten.length ≤ start

section Start

variable {s t : Text} {i start : ℕ}

theorem dsmlMark_ne : dsmlMark ≠ [] := by decide

theorem toolCallOpen_ne : toolCallOpen ≠ [] := by decide

theorem markupStart_eq_none : markupStart s = none ↔ find dsmlMark s = none ∧ find toolCallOpen s = none := by
  unfold markupStart
  cases find dsmlMark s <;> cases find toolCallOpen s <;> simp

/-- Where the mark is, or the bracket before it. -/
theorem bracket_le (i : ℕ) (s : Text) : (rfind ['<'] (s.take i)).getD i ≤ i := by
  cases h : rfind ['<'] (s.take i) with
  | none => exact le_rfl
  | some k =>
    have hbound := (rfind_some h).bound (List.cons_ne_nil _ _)
    rw [List.length_take, List.length_singleton] at hbound
    rw [Option.getD_some]
    omega

theorem le_bracket {b : ℕ} (h : At toolCallOpen s b) (hle : b + toolCallOpen.length ≤ i) :
    b ≤ (rfind ['<'] (s.take i)).getD i := by
  have hopen : At ['<'] (s.take i) b := by
    have hwhole : At toolCallOpen (s.take i) b := by
      rw [← List.take_append_drop i s] at h
      refine h.of_append ?_
      have hbound := h.bound toolCallOpen_ne
      rw [List.take_append_drop] at hbound
      rw [List.length_take]
      omega
    exact List.IsPrefix.trans (by decide) hwhole
  obtain ⟨k, hk, hbk⟩ := le_rfind hopen (List.cons_ne_nil _ _)
  rw [hk]
  exact hbk

theorem apart_marks {b : ℕ} (h : At dsmlMark s i) (h' : At toolCallOpen s b) :
    i + dsmlMark.length ≤ b ∨ b + toolCallOpen.length ≤ i := by
  have hall : dsmlMark.all (fun c => decide (c ∉ toolCallOpen)) = true := by decide
  have hdisjoint : ∀ c ∈ dsmlMark, c ∉ toolCallOpen := by
    simpa only [List.all_eq_true, decide_eq_true_eq] using hall
  exact h.apart h' hdisjoint dsmlMark_ne toolCallOpen_ne

theorem take_append_of_find (h : find dsmlMark s = some i) : (s ++ t).take i = s.take i := by
  have hbound := find_bound dsmlMark_ne h
  exact List.take_append_of_le_length (by omega)

/-- Where markup starts once, it starts however the text goes on. -/
theorem markupStart_append (h : markupStart s = some start) : markupStart (s ++ t) = some start := by
  unfold markupStart at h ⊢
  cases hdsml : find dsmlMark s with
  | some i =>
    rw [hdsml] at h
    rw [find_append dsmlMark_ne hdsml, Option.map_some, take_append_of_find hdsml]
    cases hxml : find toolCallOpen s with
    | some b =>
      rw [hxml] at h
      rw [find_append toolCallOpen_ne hxml]
      exact h
    | none =>
      rw [hxml] at h
      cases hxml' : find toolCallOpen (s ++ t) with
      | none => exact h
      | some b =>
        -- a tag that ends only in what follows begins after the mark
        have hafter := find_append_of_none toolCallOpen_ne hxml hxml'
        have hbound := find_bound dsmlMark_ne hdsml
        have hmark : At dsmlMark (s ++ t) i := (find_some hdsml).1.append dsmlMark_ne
        have hle := bracket_le i s
        have hmin : min ((rfind ['<'] (s.take i)).getD i) b = (rfind ['<'] (s.take i)).getD i := by
          rcases apart_marks hmark (find_some hxml').1 with hbefore | hbefore
          · omega
          · omega
        exact (congrArg some hmin).trans h
  | none =>
    rw [hdsml] at h
    cases hxml : find toolCallOpen s with
    | none =>
      rw [hxml] at h
      cases h
    | some b =>
      rw [hxml] at h
      rw [find_append toolCallOpen_ne hxml]
      cases hdsml' : find dsmlMark (s ++ t) with
      | none => exact h
      | some i =>
        -- a mark that ends only in what follows begins after the tag, and so does its bracket
        have hafter := find_append_of_none dsmlMark_ne hdsml hdsml'
        have hbound := find_bound toolCallOpen_ne hxml
        have htag : At toolCallOpen (s ++ t) _ := (find_some hxml).1.append toolCallOpen_ne
        have hle : b ≤ (rfind ['<'] ((s ++ t).take i)).getD i := by
          rcases apart_marks (find_some hdsml').1 htag with hbefore | hbefore
          · have hlength : dsmlMark.length = 6 := by decide
            omega
          · exact le_bracket htag hbefore
        have hmin : min ((rfind ['<'] ((s ++ t).take i)).getD i) b = b := min_eq_right hle
        exact (congrArg some hmin).trans h

theorem markupStart_of_append (h : markupStart (s ++ t) = none) : markupStart s = none := by
  cases hs : markupStart s with
  | none => rfl
  | some start =>
    rw [markupStart_append hs] at h
    cases h

theorem markupStart_le (h : markupStart s = some start) : start ≤ s.length := by
  unfold markupStart at h
  cases hdsml : find dsmlMark s with
  | some i =>
    have hle := bracket_le i s
    have hbound := find_bound dsmlMark_ne hdsml
    rw [hdsml] at h
    cases hxml : find toolCallOpen s with
    | some b =>
      rw [hxml] at h
      cases h
      exact (min_le_left _ _).trans (hle.trans (by omega))
    | none =>
      rw [hxml] at h
      cases h
      exact hle.trans (by omega)
  | none =>
    rw [hdsml] at h
    cases hxml : find toolCallOpen s with
    | some b =>
      rw [hxml] at h
      cases h
      have hbound := find_bound toolCallOpen_ne hxml
      omega
    | none =>
      rw [hxml] at h
      cases h

end Start

section Stream

variable {deltas front : List Text} {content : Text} {start : ℕ}

theorem foldl_showDelta (deltas : List Text) :
    deltas.foldl showDelta ([], []) = (deltas.flatten, visibleDeltas deltas) := by
  refine Prod.ext ?_ rfl
  induction deltas using List.reverseRecOn with
  | nil => rfl
  | append_singleton deltas content ih =>
    rw [List.foldl_append, List.flatten_append]
    change (deltas.foldl showDelta ([], [])).1 ++ content = _
    rw [ih, List.flatten_singleton]

theorem visibleDeltas_concat (deltas : List Text) (content : Text) :
    visibleDeltas (deltas ++ [content]) = visibleDeltas deltas ++ markupVisibleDelta deltas.flatten content := by
  have hfold := foldl_showDelta deltas
  rw [visibleDeltas, List.foldl_append, hfold]
  rfl

theorem markupVisibleDelta_of_some {previous : Text} (h : markupStart previous = some start) :
    markupVisibleDelta previous content = [] := by
  rw [markupVisibleDelta, h]
  rfl

theorem markupVisibleDelta_of_none {previous : Text} (h : markupStart (previous ++ content) = none) :
    markupVisibleDelta previous content = content := by
  rw [markupVisibleDelta, markupStart_of_append h]
  dsimp only [Option.isSome_none, Bool.false_eq_true, if_false]
  rw [h]
  rfl

/-- The piece that brings the first whole mark. -/
theorem markupVisibleDelta_of_starts {previous : Text} (hnone : markupStart previous = none)
    (h : markupStart (previous ++ content) = some start) : markupVisibleDelta previous content =
      if start ≤ previous.length then [] else ((previous ++ content).take start).drop previous.length := by
  rw [markupVisibleDelta, hnone]
  dsimp only [Option.isSome_none, Bool.false_eq_true, if_false]
  rw [h]
  rfl

theorem visibleDeltas_of_none (h : markupStart deltas.flatten = none) : visibleDeltas deltas = deltas.flatten := by
  induction deltas using List.reverseRecOn with
  | nil => rfl
  | append_singleton deltas content ih =>
    rw [List.flatten_append, List.flatten_singleton] at h ⊢
    rw [visibleDeltas_concat, ih (markupStart_of_append h), markupVisibleDelta_of_none h]

/-- The pieces before the one that brings a first whole mark. -/
structure LastClear (deltas front : List Text) : Prop where
  prefix_deltas : front <+: deltas
  clear : markupStart front.flatten = none
  last : ∀ other, other <+: deltas → markupStart other.flatten = none →
    other.flatten.length ≤ front.flatten.length

theorem prefix_flatten {l l' : List Text} (h : l <+: l') : l.flatten <+: l'.flatten := by
  obtain ⟨rest, rfl⟩ := h
  rw [List.flatten_append]
  exact List.prefix_append _ _

/-- What is shown of a text with markup: all of the clear pieces, and the rest of the text up to the markup. -/
theorem visibleDeltas_of_some (h : markupStart deltas.flatten = some start) :
    ∃ front, LastClear deltas front ∧ visibleDeltas deltas =
      if start ≤ front.flatten.length then front.flatten else deltas.flatten.take start := by
  induction deltas using List.reverseRecOn with
  | nil => cases h
  | append_singleton deltas content ih =>
    rw [visibleDeltas_concat]
    rw [List.flatten_append, List.flatten_singleton] at h ⊢
    cases hbefore : markupStart deltas.flatten with
    | some start' =>
      obtain rfl : start' = start := by
        rw [markupStart_append hbefore, Option.some.injEq] at h
        exact h
      obtain ⟨front, hfront, hshown⟩ := ih hbefore
      refine ⟨front, ⟨hfront.prefix_deltas.trans (List.prefix_append _ _), hfront.clear, fun other hother hclear => ?_⟩, ?_⟩
      · rcases List.prefix_concat_iff.mp hother with rfl | hother
        · rw [List.flatten_append, List.flatten_singleton, h] at hclear
          cases hclear
        · exact hfront.last other hother hclear
      · rw [markupVisibleDelta_of_some hbefore, List.append_nil, hshown,
          List.take_append_of_le_length (markupStart_le hbefore)]
    | none =>
      refine ⟨deltas, ⟨List.prefix_append _ _, hbefore, fun other hother hclear => ?_⟩, ?_⟩
      · rcases List.prefix_concat_iff.mp hother with rfl | hother
        · rw [List.flatten_append, List.flatten_singleton, h] at hclear
          cases hclear
        · exact (prefix_flatten hother).length_le
      · rw [visibleDeltas_of_none hbefore, markupVisibleDelta_of_starts hbefore h]
        split
        · rw [List.append_nil]
        · next hlater =>
          have htake : ((deltas.flatten ++ content).take start).take deltas.flatten.length = deltas.flatten := by
            rw [List.take_take, min_eq_left (by omega), List.take_left]
          have hsplit := List.take_append_drop deltas.flatten.length ((deltas.flatten ++ content).take start)
          rwa [htake] at hsplit

/-- What is shown is the text up to its markup just where no piece is cut within it. -/
theorem visibleDeltas_eq_iff (deltas : List Text) :
    visibleDeltas deltas = beforeMarkup deltas.flatten ↔ NoneCut deltas := by
  cases h : markupStart deltas.flatten with
  | none =>
    refine iff_of_true ?_ fun front hfront hclear start hstart => ?_
    · rw [visibleDeltas_of_none h, beforeMarkup, h, Option.getD_none, List.take_length]
    · rw [h] at hstart
      cases hstart
  | some start =>
    obtain ⟨front, hfront, hshown⟩ := visibleDeltas_of_some h
    have hlaw : NoneCut deltas ↔ front.flatten.length ≤ start := by
      constructor
      · exact fun hnone => hnone front hfront.prefix_deltas hfront.clear start h
      · intro hle other hother hclear start' hstart'
        rw [h] at hstart'
        cases hstart'
        exact (hfront.last other hother hclear).trans hle
    rw [hlaw, hshown, beforeMarkup, h, Option.getD_some]
    obtain ⟨rest, hrest⟩ := prefix_flatten hfront.prefix_deltas
    split
    · next hle =>
      constructor
      · intro heq
        rw [heq]
        exact List.length_take_le _ _
      · intro hge
        rw [← hrest, le_antisymm hle hge, List.take_left]
    · next hgt => exact iff_of_true rfl (by omega)

/-- The tag of a tool call in two pieces. -/
theorem visibleDeltas_leaks :
    visibleDeltas ["<tool".toList, "_call>".toList] ≠ beforeMarkup ["<tool".toList, "_call>".toList].flatten := by
  decide

end Stream

end Rootmode.Worker
