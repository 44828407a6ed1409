import Rootmode.ConnectedTools.Codex
import Rootmode.Lib.Reread
import Rootmode.Lib.TomlDoc
import Rootmode.Lib.TomlLines

namespace Rootmode.ConnectedTools

open Lib Lib.Text

variable {ls ls' before after : List Text} {l a key t u v : Text} {ep : Endpoint} {p : Text → Bool}

def providerText : Text := ofString providerKey

/-- The assignments the patch makes. -/
def providerLine : Text := assignment modelProviderKey providerText

def modelLine (ep : Endpoint) : Text := assignment modelKey ep.model

theorem connectLines_eq (ep : Endpoint) (ls : List Text) : connectLines ep ls =
    popBlank (setTopLevel (setTopLevel (removeProviderTable ls) modelProviderKey providerLine) modelKey
      (modelLine ep)) ++ [] :: providerTable ep := rfl

section Kinds

/-- What a line says something by. -/
def blank (line : Text) : Bool := trim line == []

theorem blank_iff : blank l = true ↔ ∀ c ∈ l, isWhitespace c = true := by
  rw [blank, beq_iff_eq, trim_eq_nil]

theorem blank_eq_true_iff : blank l = true ↔ l.dropWhile isWhitespace = [] := by
  rw [blank_iff, List.dropWhile_eq_nil_iff]

theorem startsTable_iff : startsTable l = true ↔ (l.dropWhile isWhitespace).head? = some '[' := by
  rw [startsTable, List.isPrefixOf_iff_prefix]
  constructor
  · rintro ⟨t, ht⟩
    rw [← ht]
    rfl
  · intro h
    obtain ⟨t, ht⟩ := List.head?_eq_some_iff.mp h
    exact ⟨t, ht.symm⟩

theorem startsTable_of_header (h : isProviderHeader l = true) : startsTable l = true := by
  rw [isProviderHeader, beq_iff_eq, trim_eq] at h
  have hprefix : trimEnd (l.dropWhile isWhitespace) <+: l.dropWhile isWhitespace := trimEnd_prefix
  rw [h] at hprefix
  obtain ⟨t, ht⟩ := hprefix
  rw [startsTable_iff, ← ht]
  rfl

theorem startsKey_iff : startsKey key l = true ↔ ∃ t, l.dropWhile isWhitespace = key ++ ' ' :: t := by
  rw [startsKey, List.isPrefixOf_iff_prefix]
  constructor
  · rintro ⟨t, ht⟩
    exact ⟨t, by rw [← ht, List.append_assoc, List.singleton_append]⟩
  · rintro ⟨t, ht⟩
    exact ⟨t, by rw [ht, List.append_assoc, List.singleton_append]⟩

theorem said_of_startsTable (h : startsTable l = true) : blank l = false := by
  rw [Bool.eq_false_iff]
  intro hblank
  rw [startsTable_iff, blank_eq_true_iff.mp hblank] at h
  cases h

theorem said_of_startsKey (h : startsKey key l = true) : blank l = false := by
  obtain ⟨t, ht⟩ := startsKey_iff.mp h
  rw [Bool.eq_false_iff]
  intro hblank
  rw [blank_eq_true_iff.mp hblank] at ht
  exact absurd ht.symm (by simp)

/-- The keys the patch sets. -/
theorem not_startsTable_of_startsKey (h : startsKey ('m' :: key) l = true) : startsTable l = false := by
  obtain ⟨t, ht⟩ := startsKey_iff.mp h
  rw [Bool.eq_false_iff]
  intro htable
  rw [startsTable_iff, ht] at htable
  cases htable

theorem not_header_of_not_startsTable (h : startsTable l = false) : isProviderHeader l = false := by
  rw [Bool.eq_false_iff]
  intro hheader
  rw [startsTable_of_header hheader] at h
  cases h

theorem not_startsKey_both (h : startsKey modelKey l = true) : startsKey modelProviderKey l = false := by
  obtain ⟨t, ht⟩ := startsKey_iff.mp h
  rw [Bool.eq_false_iff]
  intro hother
  obtain ⟨u, hu⟩ := startsKey_iff.mp hother
  rw [ht] at hu
  have hchar := congrArg (fun s => s[5]?) hu
  exact absurd hchar (by simp [modelKey, modelProviderKey, ofString])

theorem startsKey_assignment (v : Text) : startsKey ('m' :: key) (assignment ('m' :: key) v) = true := by
  refine startsKey_iff.mpr ⟨ofString "= " ++ tomlString v, ?_⟩
  rw [assignment, List.append_assoc, List.cons_append, List.dropWhile_cons_of_neg (by decide)]
  rfl

theorem startsKey_providerLine : startsKey modelProviderKey providerLine = true := startsKey_assignment providerText

theorem startsKey_modelLine (ep : Endpoint) : startsKey modelKey (modelLine ep) = true := startsKey_assignment ep.model

theorem not_startsKey_providerLine : startsKey modelKey providerLine = false := by
  rw [Bool.eq_false_iff]
  intro h
  have hboth := not_startsKey_both h
  rw [startsKey_providerLine] at hboth
  cases hboth

end Kinds

section PopBlank

theorem popBlank_eq : popBlank ls = ls.rdropWhile blank := rfl

theorem popBlank_append_said (h : blank l = false) (ls : List Text) :
    popBlank (before ++ l :: ls) = before ++ l :: popBlank ls := by
  induction ls using List.reverseRecOn with
  | nil => rw [popBlank_eq, List.rdropWhile_concat_neg _ _ _ (by simp [h])]; rfl
  | append_singleton ls x ih =>
    rw [← List.cons_append, ← List.append_assoc, popBlank_eq, popBlank_eq, List.rdropWhile_concat, List.rdropWhile_concat]
    split
    · exact ih
    · rw [List.append_assoc, List.cons_append]

theorem popBlank_append_blank (h : ∀ l ∈ ls', blank l = true) : popBlank (ls ++ ls') = popBlank ls := by
  induction ls' using List.reverseRecOn with
  | nil => rw [List.append_nil]
  | append_singleton ls' x ih =>
    obtain ⟨hls', hx⟩ := List.forall_mem_append.mp h
    rw [← List.append_assoc, popBlank_eq, List.rdropWhile_concat_pos _ _ _ (hx x (List.mem_singleton_self x))]
    exact ih hls'

theorem popBlank_popBlank (ls : List Text) : popBlank (popBlank ls) = popBlank ls := List.rdropWhile_idempotent _ _

/-- What is taken off are blank lines. -/
theorem popBlank_split (ls : List Text) : ∃ rest, ls = popBlank ls ++ rest ∧ ∀ l ∈ rest, blank l = true :=
  ⟨ls.rtakeWhile blank, List.rdropWhile_append_rtakeWhile.symm, fun _ hl => List.mem_rtakeWhile_imp hl⟩

theorem popBlank_sublist (ls : List Text) : (popBlank ls).Sublist ls := (List.rdropWhile_prefix _ _).sublist

theorem countP_popBlank (hp : ∀ l, p l = true → blank l = false) (ls : List Text) :
    (popBlank ls).countP p = ls.countP p := by
  obtain ⟨rest, hls, hrest⟩ := popBlank_split ls
  have hzero : rest.countP p = 0 := by
    rw [List.countP_eq_zero]
    intro l hl hpl
    have hblank := hrest l hl
    rw [hp l hpl] at hblank
    cases hblank
  conv_rhs => rw [hls, List.countP_append, hzero, Nat.add_zero]

end PopBlank

section File

theorem fileText_eq (h : ls ≠ []) : fileText ls = ended ls := by
  induction ls with
  | nil => exact absurd rfl h
  | cons l ls ih =>
    cases ls with
    | nil =>
      rw [fileText, List.intercalate_singleton, ended_cons]
      rfl
    | cons l' ls =>
      rw [ended_cons, ← ih (List.cons_ne_nil _ _), fileText, fileText, List.intercalate_cons_cons]
      simp

theorem connectLines_ne_nil (ep : Endpoint) (ls : List Text) : connectLines ep ls ≠ [] := by
  rw [connectLines_eq]
  exact List.append_ne_nil_of_right_ne_nil _ (List.cons_ne_nil _ _)

/-- The lines of the patched file. -/
theorem lines_connectCodex (ep : Endpoint) (f : Text) :
    lines (connectCodex ep (some f)) = relines (connectLines ep (lines f)) := by
  rw [connectCodex, fileText_eq (connectLines_ne_nil _ _), lines_ended]
  rfl

/-- The lines of a file, blank ones at its end apart. -/
theorem popBlank_lines_fileText (h : ∀ l ∈ ls, Clean l) : popBlank (lines (fileText ls)) = popBlank ls := by
  by_cases hnil : ls = []
  · rw [hnil]
    rfl
  · rw [fileText_eq hnil, lines_ended, relines_clean h]

end File

end Rootmode.ConnectedTools
