import Rootmode.ConnectedTools.Jsonc
import Rootmode.Lib.Written

namespace Rootmode.ConnectedTools

open Lib Lib.Text Lib.Written
open Lib.Json (closes)

variable {d : Dialect} {s : Shape} {t u g raw : Text} {v : Tree} {c : Char}

section Literals

variable {f : Mode → Text → Text}

theorem Scans.escapes (h : Scans f) (c : Char) (rest : Text) : f .string ('\\' :: c :: rest) = '\\' :: c :: f .string rest := by
  rw [h.backslash, h.escaped]

theorem Scans.literal (h : Scans f) (hraw : Literal raw) (rest : Text) :
    f .string (raw ++ '"' :: rest) = raw ++ '"' :: f .code rest := by
  induction hraw with
  | nil => exact h.close rest
  | plain hquote hbackslash _ _ ih =>
    rw [List.cons_append, h.inside _ _ hquote hbackslash, ih]
    rfl
  | escaped _ _ ih =>
    rw [List.cons_append, List.cons_append, h.escapes, ih]
    rfl
  | @unicode a b c d t hhex _ ih =>
    obtain ⟨ha, hb, hc, hd⟩ : isHex a = true ∧ isHex b = true ∧ isHex c = true ∧ isHex d = true := by simpa using hhex
    simp only [List.cons_append]
    rw [h.escapes, h.inside _ _ (isHex_ne ha).1 (isHex_ne ha).2.1, h.inside _ _ (isHex_ne hb).1 (isHex_ne hb).2.1,
      h.inside _ _ (isHex_ne hc).1 (isHex_ne hc).2.1, h.inside _ _ (isHex_ne hd).1 (isHex_ne hd).2.1, ih]

end Literals

section Uncomment

theorem uncomment_keep (hquote : c ≠ '"') (hslash : c ≠ '/') : uncomment .code (c :: t) = c :: uncomment .code t := by
  rw [uncomment, if_neg hquote, if_neg fun h => hslash h.1, if_neg fun h => hslash h.1]

theorem uncomment_quote : uncomment .code ('"' :: t) = '"' :: uncomment .string t := by rw [uncomment, if_pos rfl]

theorem uncomment_words (h : ∀ c ∈ t, isWordChar c = true) : uncomment .code (t ++ u) = t ++ uncomment .code u := by
  induction t with
  | nil => rfl
  | cons c t ih =>
    obtain ⟨hc, ht⟩ := List.forall_mem_cons.mp h
    obtain ⟨hquote, hslash, -⟩ := ne_of_isWordChar hc
    rw [List.cons_append, uncomment_keep hquote hslash, ih ht]
    rfl

theorem uncomment_line (h : '\n' ∉ g) : uncomment .line (g ++ '\n' :: t) = '\n' :: uncomment .code t := by
  induction g with
  | nil => rw [List.nil_append, uncomment, if_pos rfl]
  | cons c g ih =>
    rw [List.mem_cons, not_or] at h
    rw [List.cons_append, uncomment, if_neg fun heq => h.1 heq.symm, ih h.2]

theorem uncomment_last (h : '\n' ∉ g) : uncomment .line g = [] := by
  induction g with
  | nil => rfl
  | cons c g ih =>
    rw [List.mem_cons, not_or] at h
    rw [uncomment, if_neg fun heq => h.1 heq.symm, ih h.2]

/-- A comment is over where a slash follows a star for the first time. -/
theorem uncomment_block {star : Bool} (h : ¬ ['*', '/'] <:+: g ++ ['*']) (hstar : star = true → g.head? ≠ some '/') :
    uncomment (.block star) (g ++ '*' :: '/' :: t) = uncomment .code t := by
  induction g generalizing star with
  | nil =>
    rw [List.nil_append, uncomment, if_neg fun h => absurd h.2 (by decide), uncomment, if_pos ⟨by decide, rfl⟩]
  | cons c g ih =>
    have hopen : ¬ (star = true ∧ c = '/') := fun hboth => hstar hboth.1 (congrArg some hboth.2)
    rw [List.cons_append, uncomment, if_neg hopen]
    refine ih (fun hin => h (hin.trans (List.suffix_cons c (g ++ ['*'])).isInfix)) fun hc hhead => h ?_
    obtain ⟨g', rfl⟩ := List.head?_eq_some_iff.mp hhead
    rw [of_decide_eq_true hc]
    exact ⟨[], g' ++ ['*'], rfl⟩

theorem gap_uncommented (h : Gap d g) :
    ∃ g', Gap d.bare g' ∧ ∀ rest, uncomment .code (g ++ rest) = g' ++ uncomment .code rest := by
  induction h with
  | nil => exact ⟨[], .nil, fun _ => rfl⟩
  | @blank c _ hc _ ih =>
    obtain ⟨g', hg', hrest⟩ := ih
    refine ⟨c :: g', .blank hc hg', fun rest => ?_⟩
    rw [List.cons_append, uncomment_keep (isBlank_ne hc).1 (isBlank_ne hc).2.1, hrest]
    rfl
  | line _ hs _ ih =>
    obtain ⟨g', hg', hrest⟩ := ih
    refine ⟨'\n' :: g', .blank (by decide) hg', fun rest => ?_⟩
    simp only [List.cons_append, List.append_assoc]
    rw [uncomment, if_neg (by decide), if_pos ⟨rfl, rfl⟩, uncomment, if_neg (by decide), uncomment_line hs, hrest]
  | block _ hs _ ih =>
    obtain ⟨g', hg', hrest⟩ := ih
    refine ⟨g', hg', fun rest => ?_⟩
    simp only [List.cons_append, List.append_assoc]
    rw [uncomment, if_neg (by decide), if_neg fun h => absurd h.2 (by simp), if_pos ⟨rfl, rfl⟩, uncomment,
      uncomment_block hs (fun h => absurd h Bool.false_ne_true), hrest]

/-- The first pass takes the comments and nothing else. -/
theorem says_uncommented (h : Says d s t v) :
    ∃ t', Says d.bare s t' v ∧ ∀ rest, uncomment .code (t ++ rest) = t' ++ uncomment .code rest := by
  induction h with
  | word h => exact ⟨_, .word h, fun _ => uncomment_words h.wordly.2⟩
  | @string raw h =>
    refine ⟨_, .string h, fun rest => ?_⟩
    rw [List.cons_append, uncomment_quote, List.append_assoc, List.singleton_append, scans_uncomment.literal h]
    simp
  | @group b t vs _ ih =>
    obtain ⟨t', ht', hrest⟩ := ih
    refine ⟨_, .group ht', fun rest => ?_⟩
    rw [List.cons_append, uncomment_keep b.opening_ne.1 b.opening_ne.2.1, hrest]
    rfl
  | item _ ih =>
    obtain ⟨t', ht', hrest⟩ := ih
    exact ⟨t', .item ht', hrest⟩
  | @entry key g g' t v hkey hg hg' _ ih =>
    obtain ⟨t', ht', hrest⟩ := ih
    obtain ⟨gap, hgap, hrestg⟩ := gap_uncommented hg
    obtain ⟨gap', hgap', hrestg'⟩ := gap_uncommented hg'
    refine ⟨_, .entry hkey hgap hgap' ht', fun rest => ?_⟩
    simp only [List.cons_append, List.append_assoc]
    rw [uncomment_quote, scans_uncomment.literal hkey, hrestg, uncomment_keep (by decide) (by decide), hrestg', hrest]
  | @empty b g hg =>
    obtain ⟨gap, hgap, hrestg⟩ := gap_uncommented hg
    refine ⟨_, .empty hgap, fun rest => ?_⟩
    rw [List.append_assoc, hrestg, List.singleton_append, uncomment_keep b.closing_ne.1 b.closing_ne.2.1]
    simp
  | first hg _ _ ih ihr =>
    obtain ⟨t', ht', hrest⟩ := ih
    obtain ⟨r', hr', hrest'⟩ := ihr
    obtain ⟨gap, hgap, hrestg⟩ := gap_uncommented hg
    refine ⟨_, .first hgap ht' hr', fun rest => ?_⟩
    simp only [List.append_assoc]
    rw [hrestg, hrest, hrest']
  | @last b g hg =>
    obtain ⟨gap, hgap, hrestg⟩ := gap_uncommented hg
    refine ⟨_, .last hgap, fun rest => ?_⟩
    rw [List.append_assoc, hrestg, List.singleton_append, uncomment_keep b.closing_ne.1 b.closing_ne.2.1]
    simp
  | next hg hg' _ _ ih ihr =>
    obtain ⟨t', ht', hrest⟩ := ih
    obtain ⟨r', hr', hrest'⟩ := ihr
    obtain ⟨gap, hgap, hrestg⟩ := gap_uncommented hg
    obtain ⟨gap', hgap', hrestg'⟩ := gap_uncommented hg'
    refine ⟨_, .next hgap hgap' ht' hr', fun rest => ?_⟩
    simp only [List.cons_append, List.append_assoc]
    rw [hrestg, uncomment_keep (by decide) (by decide), hrestg', hrest, hrest']
  | @trailing b g g' hd hg hg' =>
    obtain ⟨gap, hgap, hrestg⟩ := gap_uncommented hg
    obtain ⟨gap', hgap', hrestg'⟩ := gap_uncommented hg'
    refine ⟨_, .trailing hd hgap hgap', fun rest => ?_⟩
    simp only [List.cons_append, List.append_assoc, List.nil_append]
    rw [hrestg, uncomment_keep (by decide) (by decide), hrestg', uncomment_keep b.closing_ne.1 b.closing_ne.2.1]

theorem document_uncommented (h : Document d t v) : Document d.bare (uncomment .code t) v := by
  obtain ⟨hg, h, hg', hr⟩ := h
  obtain ⟨gap, hgap, hrestg⟩ := gap_uncommented hg
  obtain ⟨t', ht', hrest⟩ := says_uncommented h
  obtain ⟨gap', hgap', hrestg'⟩ := gap_uncommented hg'
  rw [hrestg, hrest, hrestg']
  cases hr with
  | none => exact .intro hgap ht' hgap' .none
  | line _ hs =>
    rw [uncomment, if_neg (by decide), if_pos ⟨rfl, rfl⟩, uncomment, if_neg (by decide), uncomment_last hs]
    exact .intro hgap ht' hgap' .none

end Uncomment

section Commas

theorem strip_keep (h : c ≠ ',') : stripTrailingCommas (c :: t) = c :: stripTrailingCommas t := by
  rw [stripTrailingCommas, if_neg fun hc => h hc.1]

theorem strip_passes (h : ∀ c ∈ t, c ≠ ',') : stripTrailingCommas (t ++ u) = t ++ stripTrailingCommas u := by
  induction t with
  | nil => rfl
  | cons c t ih =>
    obtain ⟨hc, ht⟩ := List.forall_mem_cons.mp h
    rw [List.cons_append, strip_keep hc, ih ht]
    rfl

theorem length_strip_le : (stripTrailingCommas t).length ≤ t.length := by
  induction t with
  | nil => exact le_rfl
  | cons c t ih =>
    rw [stripTrailingCommas]
    split
    · exact ih.trans (Nat.le_succ _)
    · exact Nat.succ_le_succ ih

/-- A text that keeps all its commas. -/
theorem strip_eq_self : stripTrailingCommas t = t ↔ breaks t = false := by
  constructor
  · intro h
    induction t with
    | nil => rfl
    | cons c t ih =>
      rw [stripTrailingCommas] at h
      split at h
      · have hlength := congrArg List.length h
        have hle : (stripTrailingCommas t).length ≤ t.length := length_strip_le
        rw [List.length_cons] at hlength
        omega
      · next hkeep =>
        have hhead : ¬ (decide (c = ',') && closes t) = true := by simpa using hkeep
        rw [breaks, Bool.or_eq_false_iff]
        exact ⟨Bool.not_eq_true _ |>.mp hhead, ih (List.cons.inj h).2⟩
  · intro h
    have hstrip := @stripTrailingCommas_append t [] h rfl
    rwa [List.append_nil, stripTrailingCommas, List.append_nil] at hstrip

theorem closes_quote : closes (raw ++ '"' :: t) = closes raw := by
  unfold closes
  induction raw with
  | nil => rfl
  | cons c raw ih =>
    rw [List.cons_append, List.dropWhile_cons, List.dropWhile_cons]
    split
    · exact ih
    · rfl

/-- The second pass does not know where a string ends. -/
theorem strip_literal : stripTrailingCommas (raw ++ '"' :: t) = stripTrailingCommas raw ++ '"' :: stripTrailingCommas t := by
  induction raw with
  | nil => exact strip_keep (by decide)
  | cons c raw ih =>
    rw [List.cons_append, stripTrailingCommas, stripTrailingCommas, closes_quote]
    split
    · exact ih
    · rw [ih]
      rfl

theorem literal_strip (h : Literal raw) : Literal (stripTrailingCommas raw) := by
  induction h with
  | nil => exact .nil
  | plain hquote hbackslash hc _ ih =>
    rw [stripTrailingCommas]
    split
    · exact ih
    · exact .plain hquote hbackslash hc ih
  | escaped hc _ ih =>
    have hcomma : ',' ∉ ['"', '\\', '/', 'b', 'f', 'n', 'r', 't'] := by decide
    rw [strip_keep (by decide), strip_keep fun h => hcomma (h ▸ hc)]
    exact .escaped hc ih
  | @unicode a b c d t hhex _ ih =>
    obtain ⟨ha, hb, hc, hd⟩ : isHex a = true ∧ isHex b = true ∧ isHex c = true ∧ isHex d = true := by simpa using hhex
    rw [strip_keep (by decide), strip_keep (by decide), strip_keep (isHex_ne ha).2.2, strip_keep (isHex_ne hb).2.2,
      strip_keep (isHex_ne hc).2.2, strip_keep (isHex_ne hd).2.2]
    exact .unicode hhex ih

theorem gap_white (hd : d.comments = false) (h : Gap d g) : ∀ c ∈ g, isBlank c = true := by
  induction h with
  | nil => simp
  | blank hc _ ih => exact List.forall_mem_cons.mpr ⟨hc, ih⟩
  | line hd' => rw [hd] at hd'; cases hd'
  | block hd' => rw [hd] at hd'; cases hd'

theorem gap_json (h : ∀ c ∈ g, isBlank c = true) : Gap .json g := by
  induction g with
  | nil => exact .nil
  | cons c g ih =>
    obtain ⟨hc, hg⟩ := List.forall_mem_cons.mp h
    exact .blank hc (ih hg)

theorem closes_gap (h : ∀ c ∈ g, isBlank c = true) : closes (g ++ t) = closes t := by
  unfold closes
  rw [List.dropWhile_append_of_pos fun c hc => isWhitespace_of_isBlank (h c hc)]

theorem closes_cons (h : isWhitespace c = false) (hcurly : c ≠ '}') (hsquare : c ≠ ']') : closes (c :: t) = false := by
  rw [closes, List.dropWhile_cons_of_neg (by simp [h])]
  simp [hcurly, hsquare]

theorem closes_closing (b : Bracket) : closes (b.closing :: t) = true := by
  cases b <;> rfl

/-- Neither a value nor a member begins as a bracket that closes. -/
theorem not_closes (h : Says d s t v) (hs : s = .value ∨ ∃ b, s = .member b) : closes (t ++ u) = false := by
  induction h with
  | @word w h =>
    obtain ⟨hne, hchars⟩ := h.wordly
    obtain ⟨c, w, rfl⟩ := List.exists_cons_of_ne_nil hne
    have hc := hchars c List.mem_cons_self
    refine closes_cons (isWhitespace_of_isWordChar hc) ?_ ?_
    all_goals
      rintro rfl
      revert hc
      decide
  | string _ => exact closes_cons (by decide) (by decide) (by decide)
  | @group b _ _ _ _ => cases b <;> exact closes_cons (by decide) (by decide) (by decide)
  | item _ ih => exact ih (.inl rfl)
  | entry _ _ _ _ _ => exact closes_cons (by decide) (by decide) (by decide)
  | empty _ => rcases hs with hs | ⟨b, hs⟩ <;> cases hs
  | first _ _ _ _ _ => rcases hs with hs | ⟨b, hs⟩ <;> cases hs
  | last _ => rcases hs with hs | ⟨b, hs⟩ <;> cases hs
  | next _ _ _ _ _ _ => rcases hs with hs | ⟨b, hs⟩ <;> cases hs
  | trailing _ _ _ => rcases hs with hs | ⟨b, hs⟩ <;> cases hs

/-- The second pass takes the trailing commas, and of every string those that a bracket follows. -/
theorem says_stripped (hd : d.comments = false) (h : Says d s t v) :
    ∃ t', Says .json s t' (v.mapLiterals stripTrailingCommas) ∧
      ∀ rest, stripTrailingCommas (t ++ rest) = t' ++ stripTrailingCommas rest := by
  have hpass : ∀ {g}, Gap d g → ∀ rest, stripTrailingCommas (g ++ rest) = g ++ stripTrailingCommas rest :=
    fun hg rest => strip_passes fun c hc => (isBlank_ne (gap_white hd hg c hc)).2.2
  have hjson : ∀ {g}, Gap d g → Gap .json g := fun hg => gap_json (gap_white hd hg)
  induction h with
  | word h => exact ⟨_, .word h, fun _ => strip_passes fun c hc => (ne_of_isWordChar (h.wordly.2 c hc)).2.2⟩
  | string h =>
    refine ⟨_, .string (literal_strip h), fun rest => ?_⟩
    rw [List.cons_append, strip_keep (by decide), List.append_assoc, List.singleton_append, strip_literal]
    simp
  | @group b t vs _ ih =>
    obtain ⟨t', ht', hrest⟩ := ih
    refine ⟨_, .group ht', fun rest => ?_⟩
    rw [List.cons_append, strip_keep b.opening_ne.2.2, hrest]
    rfl
  | item _ ih =>
    obtain ⟨t', ht', hrest⟩ := ih
    exact ⟨t', .item ht', hrest⟩
  | @entry key g g' t v hkey hg hg' _ ih =>
    obtain ⟨t', ht', hrest⟩ := ih
    refine ⟨_, .entry (literal_strip hkey) (hjson hg) (hjson hg') ht', fun rest => ?_⟩
    simp only [List.cons_append, List.append_assoc]
    rw [strip_keep (by decide), strip_literal, hpass hg, strip_keep (by decide), hpass hg', hrest]
  | @empty b g hg =>
    refine ⟨_, .empty (hjson hg), fun rest => ?_⟩
    rw [List.append_assoc, hpass hg, List.singleton_append, strip_keep b.closing_ne.2.2]
    simp
  | first hg _ _ ih ihr =>
    obtain ⟨t', ht', hrest⟩ := ih
    obtain ⟨r', hr', hrest'⟩ := ihr
    refine ⟨_, .first (hjson hg) ht' hr', fun rest => ?_⟩
    simp only [List.append_assoc]
    rw [hpass hg, hrest, hrest']
  | @last b g hg =>
    refine ⟨_, .last (hjson hg), fun rest => ?_⟩
    rw [List.append_assoc, hpass hg, List.singleton_append, strip_keep b.closing_ne.2.2]
    simp
  | next hg hg' h _ ih ihr =>
    obtain ⟨t', ht', hrest⟩ := ih
    obtain ⟨r', hr', hrest'⟩ := ihr
    refine ⟨_, .next (hjson hg) (hjson hg') ht' hr', fun rest => ?_⟩
    simp only [List.cons_append, List.append_assoc]
    rw [hpass hg, stripTrailingCommas, closes_gap (gap_white hd hg'), not_closes h (.inr ⟨_, rfl⟩), if_neg (by simp),
      hpass hg', hrest, hrest']
  | @trailing b g g' _ hg hg' =>
    refine ⟨g ++ (g' ++ [b.closing]), ?_, fun rest => ?_⟩
    · rw [← List.append_assoc]
      exact .last (gap_json (List.forall_mem_append.mpr ⟨gap_white hd hg, gap_white hd hg'⟩))
    · simp only [List.cons_append, List.append_assoc, List.nil_append]
      rw [hpass hg, stripTrailingCommas, closes_gap (gap_white hd hg'), closes_closing, if_pos ⟨rfl, rfl⟩, hpass hg',
        strip_keep b.closing_ne.2.2]

/-- What is left of a text is JSON, and says the same up to its strings. -/
theorem document_stripped (h : Document d t v) :
    Document .json (stripJsonc t) (v.mapLiterals stripTrailingCommas) := by
  have hcomments : d.bare.comments = false := rfl
  have hbare := document_uncommented h
  unfold stripJsonc
  generalize uncomment .code t = bare at hbare ⊢
  obtain ⟨hg, hsays, hg', hr⟩ := hbare
  have hpass : ∀ {g}, Gap d.bare g → ∀ rest, stripTrailingCommas (g ++ rest) = g ++ stripTrailingCommas rest :=
    fun hg rest => strip_passes fun c hc => (isBlank_ne (gap_white hcomments hg c hc)).2.2
  have hjson : ∀ {g}, Gap d.bare g → Gap .json g := fun hg => gap_json (gap_white hcomments hg)
  obtain ⟨t', ht', hrest⟩ := says_stripped hcomments hsays
  cases hr with
  | none =>
    rw [hpass hg, hrest, hpass hg', stripTrailingCommas]
    exact .intro (hjson hg) ht' (hjson hg') .none
  | line hd => cases hd

end Commas

/-- A text of JSON with comments and trailing commas is taken for what it says exactly if no string of it has a
comma that a closing bracket follows. -/
theorem document_stripJsonc_iff (h : Document .jsonc t v) :
    Document .json (stripJsonc t) v ↔ ∀ raw ∈ v.literals, breaks raw = false := by
  constructor
  · intro hsame raw hraw
    have hscan := hsame.scan rfl
    rw [(document_stripped h).scan rfl, Tree.literals_mapLiterals] at hscan
    exact strip_eq_self.mp (List.map_inj_left.mp (hscan.trans (List.map_id _).symm) raw hraw)
  · intro hunbroken
    have hstripped := document_stripped h
    rwa [Tree.mapLiterals_eq fun raw hraw => strip_eq_self.mpr (hunbroken raw hraw)] at hstripped

section Instance

/-- `[1,/*x*/]` -/
def trailed : Text := ['[', '1', ',', '/', '*', 'x', '*', '/', ']']

theorem document_trailed : Document .jsonc trailed (.group .square (.cons (.word ['1']) .nil)) := by
  have hone : Word ['1'] := @Word.number [] ['1'] [] [] .none (.digits ⟨by simp, List.all_eq_true.mp (by decide)⟩ (by decide)) .none .none
  have hcomment : ¬ ['*', '/'] <:+: ['x'] ++ ['*'] := by decide
  exact .intro .nil (.group (.first .nil (.item (.word hone)) (.trailing rfl .nil (.block rfl hcomment .nil)))) .nil .none

theorem trailed_stripped : Document .json (stripJsonc trailed) (.group .square (.cons (.word ['1']) .nil)) :=
  (document_stripJsonc_iff document_trailed).mpr (by decide)

/-- `["a,]"]` -/
def listed : Text := ['[', '"', 'a', ',', ']', '"', ']']

theorem document_listed : Document .jsonc listed (.group .square (.cons (.string ['a', ',', ']']) .nil)) := by
  have hraw : Literal ['a', ',', ']'] :=
    .plain (by decide) (by decide) (by decide) (.plain (by decide) (by decide) (by decide)
      (.plain (by decide) (by decide) (by decide) .nil))
  exact .intro .nil (.group (.first .nil (.item (.string hraw)) (.last .nil))) .nil .none

/-- A string that is edited. -/
theorem listed_changed : ¬ ∀ t v, Document .jsonc t v → Document .json (stripJsonc t) v := by
  intro h
  have hscan := (h listed _ document_listed).scan rfl
  revert hscan
  decide

end Instance

end Rootmode.ConnectedTools
