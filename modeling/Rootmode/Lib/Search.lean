import Mathlib.Data.List.Basic
import Mathlib.Data.Nat.Basic

universe u

namespace Lib.Search

variable {α : Type u}

section Search

variable [BEq α]

/-- Where a needle first stands in a text. -/
def find (needle : List α) : List α → Option ℕ
  | [] => none
  | a :: hay => if needle.isPrefixOf (a :: hay) then some 0 else (find needle hay).map (· + 1)

/-- Where it last stands. -/
def rfind (needle : List α) : List α → Option ℕ
  | [] => none
  | a :: hay =>
    match rfind needle hay with
    | some i => some (i + 1)
    | none => if needle.isPrefixOf (a :: hay) then some 0 else none

def contains (needle hay : List α) : Bool := (find needle hay).isSome

theorem find_lt {needle hay : List α} {i : ℕ} (h : find needle hay = some i) : i < hay.length := by
  induction hay generalizing i with
  | nil => cases h
  | cons a hay ih =>
    unfold find at h
    split at h
    · cases h
      exact Nat.succ_pos _
    · obtain ⟨i, hi, rfl⟩ := Option.map_eq_some_iff.mp h
      exact Nat.succ_lt_succ (ih hi)

end Search

/-- The needle stands at a place of the text. -/
def At (needle hay : List α) (i : ℕ) : Prop := needle <+: hay.drop i

variable {needle needle' hay hay' : List α} {a : α} {i j k : ℕ}

section At

theorem at_zero : At needle hay 0 ↔ needle <+: hay := Iff.rfl

theorem at_succ : At needle (a :: hay) (i + 1) ↔ At needle hay i := Iff.rfl

theorem At.bound (h : At needle hay i) (hneedle : needle ≠ []) : i + needle.length ≤ hay.length := by
  have hlength := h.length_le
  have hpos := List.length_pos_iff.mpr hneedle
  rw [List.length_drop] at hlength
  omega

theorem At.append (h : At needle hay i) (hneedle : needle ≠ []) : At needle (hay ++ hay') i := by
  have hbound := h.bound hneedle
  rw [At, List.drop_append_of_le_length (by omega)]
  exact h.trans (List.prefix_append _ _)

theorem At.of_append (h : At needle (hay ++ hay') i) (hbound : i + needle.length ≤ hay.length) :
    At needle hay i := by
  rw [At, List.drop_append_of_le_length (by omega)] at h
  exact List.prefix_of_prefix_length_le h (List.prefix_append _ _) (by rw [List.length_drop]; omega)

theorem At.getElem? (h : At needle hay i) (hk : k < needle.length) : hay[i + k]? = needle[k]? := by
  obtain ⟨rest, hrest⟩ := h
  rw [← List.getElem?_drop, ← hrest, List.getElem?_append_left hk]

/-- Needles that share no letter do not overlap. -/
theorem At.apart (h : At needle hay i) (h' : At needle' hay j) (hdisjoint : ∀ a ∈ needle, a ∉ needle')
    (hneedle : needle ≠ []) (hneedle' : needle' ≠ []) :
    i + needle.length ≤ j ∨ j + needle'.length ≤ i := by
  have hpos := List.length_pos_iff.mpr hneedle
  have hpos' := List.length_pos_iff.mpr hneedle'
  by_contra hoverlap
  -- the later of the two begins within the other
  have hshare : ∃ a ∈ needle, a ∈ needle' := by
    rcases le_total i j with hle | hle
    · have hk : j - i < needle.length := by omega
      have hhere := h.getElem? hk
      have hthere := h'.getElem? hpos'
      rw [Nat.add_sub_cancel' hle, List.getElem?_eq_getElem hk] at hhere
      rw [Nat.add_zero, hhere, List.getElem?_eq_getElem hpos', Option.some.injEq] at hthere
      exact ⟨_, List.getElem_mem hk, hthere ▸ List.getElem_mem hpos'⟩
    · have hk : i - j < needle'.length := by omega
      have hhere := h'.getElem? hk
      have hthere := h.getElem? hpos
      rw [Nat.add_sub_cancel' hle, List.getElem?_eq_getElem hk] at hhere
      rw [Nat.add_zero, hhere, List.getElem?_eq_getElem hpos, Option.some.injEq] at hthere
      exact ⟨_, List.getElem_mem hpos, hthere ▸ List.getElem_mem hk⟩
  obtain ⟨a, ha, ha'⟩ := hshare
  exact hdisjoint a ha ha'

end At

section Find

variable [BEq α] [LawfulBEq α]

theorem find_some (h : find needle hay = some i) : At needle hay i ∧ ∀ j < i, ¬ At needle hay j := by
  induction hay generalizing i with
  | nil => cases h
  | cons a hay ih =>
    unfold find at h
    split at h
    · next hhere =>
      cases h
      exact ⟨List.isPrefixOf_iff_prefix.mp hhere, fun j hj => absurd hj (Nat.not_lt_zero j)⟩
    · next hnot =>
      obtain ⟨i, hi, rfl⟩ := Option.map_eq_some_iff.mp h
      obtain ⟨hat, hfirst⟩ := ih hi
      refine ⟨at_succ.mpr hat, fun j hj => ?_⟩
      cases j with
      | zero => exact fun hzero => hnot (List.isPrefixOf_iff_prefix.mpr hzero)
      | succ j => exact fun hsucc => hfirst j (by omega) (at_succ.mp hsucc)

theorem find_none (hneedle : needle ≠ []) (h : find needle hay = none) (i : ℕ) : ¬ At needle hay i := by
  induction hay generalizing i with
  | nil =>
    intro hat
    have hbound := hat.bound hneedle
    have hpos := List.length_pos_iff.mpr hneedle
    rw [List.length_nil] at hbound
    omega
  | cons a hay ih =>
    unfold find at h
    split at h
    · cases h
    · next hnot =>
      cases i with
      | zero => exact fun hzero => hnot (List.isPrefixOf_iff_prefix.mpr hzero)
      | succ i => exact fun hsucc => ih (Option.map_eq_none_iff.mp h) i (at_succ.mp hsucc)

theorem find_bound (hneedle : needle ≠ []) (h : find needle hay = some i) : i + needle.length ≤ hay.length :=
  (find_some h).1.bound hneedle

theorem find_eq_some (hneedle : needle ≠ []) :
    find needle hay = some i ↔ At needle hay i ∧ ∀ j < i, ¬ At needle hay j := by
  refine ⟨find_some, fun ⟨hat, hfirst⟩ => ?_⟩
  cases hfind : find needle hay with
  | none => exact absurd hat (find_none hneedle hfind i)
  | some k =>
    obtain ⟨hat', hfirst'⟩ := find_some hfind
    have hle : ¬ k < i := fun hlt => hfirst k hlt hat'
    have hge : ¬ i < k := fun hlt => hfirst' i hlt hat
    rw [show k = i by omega]

theorem find_eq_none (hneedle : needle ≠ []) : find needle hay = none ↔ ∀ i, ¬ At needle hay i := by
  refine ⟨find_none hneedle, fun h => ?_⟩
  cases hfind : find needle hay with
  | none => rfl
  | some i => exact absurd (find_some hfind).1 (h i)

/-- What is found stays where it is when more follows. -/
theorem find_append (hneedle : needle ≠ []) (h : find needle hay = some i) : find needle (hay ++ hay') = some i := by
  obtain ⟨hat, hfirst⟩ := find_some h
  have hbound := hat.bound hneedle
  refine (find_eq_some hneedle).mpr ⟨hat.append hneedle, fun j hj hearly => ?_⟩
  exact hfirst j hj (hearly.of_append (by omega))

/-- What is found only with more text does not end before it. -/
theorem find_append_of_none (hneedle : needle ≠ []) (hnone : find needle hay = none)
    (h : find needle (hay ++ hay') = some i) : hay.length < i + needle.length := by
  by_contra hshort
  exact find_none hneedle hnone i ((find_some h).1.of_append (not_lt.mp hshort))

theorem rfind_some (h : rfind needle hay = some i) : At needle hay i := by
  induction hay generalizing i with
  | nil => cases h
  | cons a hay ih =>
    unfold rfind at h
    split at h
    · next k hk =>
      cases h
      exact at_succ.mpr (ih hk)
    · split at h
      · next hhere =>
        cases h
        exact List.isPrefixOf_iff_prefix.mp hhere
      · cases h

/-- Nothing is found after the last. -/
theorem le_rfind (h : At needle hay i) (hneedle : needle ≠ []) : ∃ k, rfind needle hay = some k ∧ i ≤ k := by
  induction hay generalizing i with
  | nil =>
    have hbound := h.bound hneedle
    have hpos := List.length_pos_iff.mpr hneedle
    rw [List.length_nil] at hbound
    omega
  | cons a hay ih =>
    unfold rfind
    cases i with
    | zero =>
      rw [if_pos (List.isPrefixOf_iff_prefix.mpr (at_zero.mp h))]
      cases rfind needle hay with
      | none => exact ⟨0, rfl, le_rfl⟩
      | some k => exact ⟨k + 1, rfl, Nat.zero_le _⟩
    | succ i =>
      obtain ⟨k, hk, hle⟩ := ih (at_succ.mp h)
      rw [hk]
      exact ⟨k + 1, rfl, Nat.succ_le_succ hle⟩

end Find

end Lib.Search
