import Rootmode.Worker.Screen

namespace Rootmode.Worker.Screen

open Lib Lib.Text Lib.Words

section Decision

variable {alphanumeric : Char → Bool} {t : Text} {p : Text} {ws list : List Text}

theorem contains_iff : contains t p = true ↔ p <:+: t := by
  rw [contains, List.any_eq_true]
  constructor
  · rintro ⟨rest, hrest, hprefix⟩
    exact (List.isPrefixOf_iff_prefix.mp hprefix).isInfix.trans ((List.mem_tails _ _).mp hrest).isInfix
  · rintro ⟨x, y, rfl⟩
    refine ⟨p ++ y, (List.mem_tails _ _).mpr ⟨x, by simp⟩, ?_⟩
    exact List.isPrefixOf_iff_prefix.mpr (List.prefix_append p y)

theorem anyPhrase_iff : anyPhrase t list = true ↔ ∃ p ∈ list, p <:+: t := by
  simp only [anyPhrase, List.any_eq_true, contains_iff]

/-- Whether a text in lower case is turned away. -/
def refuses (alphanumeric : Char → Bool) (t : Text) : Bool := !(decideOn alphanumeric t).isOk

theorem refuses_iff : refuses alphanumeric t = true ↔
    (anyWord (words alphanumeric t) always = true ∨ ∃ p ∈ alwaysPhrases, p <:+: t) ∨
      (anyWord (words alphanumeric t) minor = true ∨ (∃ p ∈ minorPhrases, p <:+: t) ∨ statesAMinorAge t = true) ∧
        (anyWord (words alphanumeric t) sexual = true ∨ ∃ p ∈ sexualPhrases, p <:+: t) := by
  simp only [refuses, decideOn, ← anyPhrase_iff]
  cases anyWord (words alphanumeric t) always <;> cases anyPhrase t alwaysPhrases <;>
    cases anyWord (words alphanumeric t) minor <;> cases anyPhrase t minorPhrases <;> cases statesAMinorAge t <;>
    cases anyWord (words alphanumeric t) sexual <;> cases anyPhrase t sexualPhrases <;> decide

end Decision

section Ages

variable {before t x d y : Text}

/-- A number of at most two digits and under eighteen, with what comes before and after it. -/
structure NumberAt (before digits rest : Text) : Prop where
  some : digits ≠ []
  number : ∀ c ∈ digits, c.isDigit = true
  starts : ∀ c ∈ before.getLast?, c.isDigit = false
  ends : ∀ c ∈ rest.head?, c.isDigit = false
  minor : minorNumber digits = true

/-- Such a number that is said to be an age. -/
structure AgeAt (before digits rest : Text) : Prop extends NumberAt before digits rest where
  said : saysAge rest = true ∨ calledAge before = true

theorem takeWhile_digits (hd : ∀ c ∈ d, c.isDigit = true) (hy : ∀ c ∈ y.head?, c.isDigit = false) :
    (d ++ y).takeWhile Char.isDigit = d ∧ (d ++ y).dropWhile Char.isDigit = y := by
  have htake : y.takeWhile Char.isDigit = [] := by
    cases y with
    | nil => rfl
    | cons c y => exact List.takeWhile_cons_of_neg (by simp [hy c rfl])
  have hdrop : y.dropWhile Char.isDigit = y := by
    cases y with
    | nil => rfl
    | cons c y => exact List.dropWhile_cons_of_neg (by simp [hy c rfl])
  rw [List.takeWhile_append_of_pos hd, List.dropWhile_append_of_pos hd, htake, hdrop, List.append_nil]
  exact ⟨rfl, rfl⟩

theorem agesFrom_iff : agesFrom before t = true ↔ ∃ x d y, t = x ++ (d ++ y) ∧ AgeAt (before ++ x) d y := by
  induction t generalizing before with
  | nil =>
    constructor
    · rintro ⟨⟩
    · rintro ⟨x, d, y, heq, hage⟩
      obtain ⟨-, hdy⟩ := List.append_eq_nil_iff.mp heq.symm
      exact absurd (List.append_eq_nil_iff.mp hdy).1 hage.some
  | cons c rest ih =>
    have hlater : agesFrom (before ++ [c]) rest = true ↔
        ∃ x d y, rest = x ++ (d ++ y) ∧ AgeAt (before ++ c :: x) d y := by
      simpa using @ih (before ++ [c])
    -- an age begins here or later
    have hsplit : (∃ x d y, c :: rest = x ++ (d ++ y) ∧ AgeAt (before ++ x) d y) ↔
        (∃ d y, c :: rest = d ++ y ∧ AgeAt before d y) ∨
          ∃ x d y, rest = x ++ (d ++ y) ∧ AgeAt (before ++ c :: x) d y := by
      constructor
      · rintro ⟨x, d, y, heq, hage⟩
        cases x with
        | nil => exact .inl ⟨d, y, heq, by simpa using hage⟩
        | cons a x =>
          obtain ⟨rfl, hrest⟩ := List.cons.inj heq
          exact .inr ⟨x, d, y, hrest, hage⟩
      · rintro (⟨d, y, heq, hage⟩ | ⟨x, d, y, heq, hage⟩)
        · exact ⟨[], d, y, heq, by simpa using hage⟩
        · exact ⟨c :: x, d, y, by rw [heq]; rfl, hage⟩
    rw [hsplit, ← hlater, agesFrom]
    split
    · next hstart =>
      obtain ⟨hc, hbefore⟩ := Bool.and_eq_true_iff.mp hstart
      rw [Bool.or_eq_true]
      refine or_congr ⟨fun h => ?_, ?_⟩ Iff.rfl
      · simp only [Bool.and_eq_true, Bool.or_eq_true] at h
        refine ⟨_, _, (List.takeWhile_append_dropWhile (p := Char.isDigit)).symm, ⟨?_, ?_, ?_, ?_, h.1⟩, h.2⟩
        · simp [List.takeWhile_cons_of_pos hc]
        · exact fun c hc => List.mem_takeWhile_imp hc
        · intro a ha
          rw [Option.mem_def.mp ha] at hbefore
          simpa using hbefore
        · exact opens_dropWhile _
      · rintro ⟨d, y, heq, hage⟩
        obtain ⟨htake, hdrop⟩ := takeWhile_digits hage.number hage.ends
        simp only [heq, htake, hdrop, Bool.and_eq_true, Bool.or_eq_true]
        exact ⟨hage.minor, hage.said⟩
    · next hstart =>
      refine ⟨.inr, fun h => h.resolve_left ?_⟩
      rintro ⟨d, y, heq, hage⟩
      refine hstart (Bool.and_eq_true_iff.mpr ⟨?_, ?_⟩)
      · cases d with
        | nil => exact absurd rfl hage.some
        | cons a d =>
          obtain ⟨rfl, -⟩ := List.cons.inj heq
          exact hage.number _ (.head _)
      · cases hlast : before.getLast? with
        | none => rfl
        | some a => simp [hage.starts a hlast]

theorem statesAMinorAge_iff : statesAMinorAge t = true ↔ ∃ x d y, t = x ++ (d ++ y) ∧ AgeAt x d y := agesFrom_iff

end Ages

section Across

/-- What is left of a word, if anything, and the words that follow. -/
def lead (w : Text) (ws : List Text) : List Text := if w = [] then ws else w :: ws

/-- Words of which the first says that a number before them is an age. -/
def Says : List Text → Prop
  | [] => False
  | w :: r =>
    (∃ m ∈ ["yo", "yr", "year"].map ofString, m <+: w) ∨
      w = ofString "y" ∧ ∃ v ∈ r.head?, ofString "o" <+: v

/-- Words, the last of them first, that say so of a number after them. -/
def Called : List Text → Prop
  | [] => False
  | w :: r =>
    (∃ m ∈ ["age", "aged", "old"].map ofString, m <:+ w) ∨
      w = ofString "of" ∧ ∃ v ∈ r.head?, ofString "age" <:+ v

/-- Some number in the words is an age, wherever in its word it stands. -/
def AgeAcross (ws : List Text) : Prop :=
  ∃ l pre d suf r, ws = l ++ (pre ++ (d ++ suf)) :: r ∧ NumberAt pre d suf ∧
    (Says (lead suf r) ∨ Called (lead pre l.reverse))

def firstOf (p : Text) : Text := p.takeWhile fun c => c ≠ ' '

def secondOf (p : Text) : Text := (p.dropWhile fun c => c ≠ ' ').tail

/-- The end of a word and the beginning of the next make a phrase. -/
def PhraseAcross (ws : List Text) (p : Text) : Prop :=
  ∃ l w v r, ws = l ++ w :: v :: r ∧ firstOf p <:+ w ∧ secondOf p <+: v

variable {alphanumeric : Char → Bool}
  (hascii : ∀ c : Char, c.toNat < 128 → alphanumeric c = c.isAlphanum)

include hascii

theorem isWord_of_ascii {m : Text} (h : m ≠ [] ∧ (m.all fun c => c.toNat < 128 && c.isAlphanum) = true) :
    IsWord alphanumeric m := by
  refine ⟨h.1, fun c hc => ?_⟩
  have hboth := List.all_eq_true.mp h.2 c hc
  rw [Bool.and_eq_true, decide_eq_true_iff] at hboth
  rw [hascii c hboth.1]
  exact hboth.2

theorem not_word_of_isGap {c : Char} (h : isGap c = true) : alphanumeric c = false := by
  simp only [isGap, Bool.or_eq_true, beq_iff_eq] at h
  rcases h with (rfl | rfl) | rfl <;> rw [hascii _ (by decide)] <;> decide

theorem word_of_isDigit {c : Char} (h : c.isDigit = true) : alphanumeric c = true := by
  have hlt : c.toNat < 128 := by
    simp only [Char.isDigit, Bool.and_eq_true, decide_eq_true_iff] at h
    have hle := UInt32.le_iff_toNat_le.mp h.2
    exact lt_of_le_of_lt hle (by decide)
  rw [hascii c hlt, Char.isAlphanum, h, Bool.or_true]

theorem space_not_word : alphanumeric ' ' = false := not_word_of_isGap hascii (by decide)

theorem slash_not_word : alphanumeric '/' = false := by
  rw [hascii _ (by decide)]
  decide

theorem words_gap_dropWhile (y : Text) : words alphanumeric (y.dropWhile isGap) = words alphanumeric y :=
  words_dropWhile (fun _ => not_word_of_isGap hascii) y

theorem words_gap_rdropWhile (x : Text) : words alphanumeric (x.rdropWhile isGap) = words alphanumeric x :=
  words_rdropWhile (fun _ => not_word_of_isGap hascii) x

/-- What says an age begins the words. -/
theorem says_of_saysAge {y : Text} (h : saysAge y = true) : Says (words alphanumeric y) := by
  obtain ⟨m, hm, hprefix⟩ := List.any_eq_true.mp h
  obtain ⟨z, hz⟩ := List.isPrefixOf_iff_prefix.mp hprefix
  rw [← words_gap_dropWhile hascii, ← hz]
  have hone : ∀ {m : Text}, m ∈ ["yo", "yr", "year"].map ofString →
      (m ≠ [] ∧ (m.all fun c => c.toNat < 128 && c.isAlphanum) = true) → ∀ z, Says (words alphanumeric (m ++ z)) := by
    intro m hm hword z
    rw [words_leading (isWord_of_ascii hascii hword)]
    exact .inl ⟨m, hm, List.prefix_append _ _⟩
  simp only [ageAfter, List.map_cons, List.map_nil, List.mem_cons, List.not_mem_nil, or_false] at hm
  rcases hm with rfl | rfl | rfl | rfl | rfl
  · exact hone (by simp) (by decide) z
  · -- y/o is two words
    have hsplit : ofString "y/o" ++ z = ofString "y" ++ '/' :: (ofString "o" ++ z) := rfl
    rw [hsplit, words_append_cons (slash_not_word hascii), (isWord_of_ascii hascii (by decide)).words,
      words_leading (isWord_of_ascii hascii (by decide)), List.singleton_append]
    exact .inr ⟨rfl, _, rfl, List.prefix_append _ _⟩
  · exact hone (by simp) (by decide) z
  · exact hone (by simp) (by decide) z
  · have hsplit : ofString "years old" ++ z = ofString "year" ++ (ofString "s old" ++ z) := rfl
    rw [hsplit]
    exact hone (by simp) (by decide) _

/-- What calls a number an age ends the words. -/
theorem called_of_calledAge {x : Text} (h : calledAge x = true) : Called (words alphanumeric x).reverse := by
  obtain ⟨m, hm, hsuffix⟩ := List.any_eq_true.mp h
  obtain ⟨z, hz⟩ := List.isSuffixOf_iff_suffix.mp hsuffix
  rw [← words_gap_rdropWhile hascii, ← hz]
  have hone : ∀ {m : Text}, m ∈ ["age", "aged", "old"].map ofString →
      (m ≠ [] ∧ (m.all fun c => c.toNat < 128 && c.isAlphanum) = true) →
      ∀ z, Called (words alphanumeric (z ++ m)).reverse := by
    intro m hm hword z
    rw [words_suffix (isWord_of_ascii hascii hword), List.reverse_append]
    exact .inl ⟨m, hm, List.suffix_append _ _⟩
  simp only [ageBefore, List.map_cons, List.map_nil, List.mem_cons, List.not_mem_nil, or_false] at hm
  rcases hm with rfl | rfl | rfl | rfl
  · exact hone (by simp) (by decide) z
  · exact hone (by simp) (by decide) z
  · have hsplit : z ++ ofString "age of" = (z ++ ofString "age") ++ ' ' :: ofString "of" := by
      rw [List.append_assoc]
      rfl
    have hof : IsWord alphanumeric (ofString "of") := isWord_of_ascii hascii (by decide)
    have hage : IsWord alphanumeric (ofString "age") := isWord_of_ascii hascii (by decide)
    rw [hsplit, words_append_cons (space_not_word hascii), hof.words, words_suffix hage, List.reverse_append,
      List.reverse_append]
    exact .inr ⟨rfl, _, rfl, List.suffix_append _ _⟩
  · exact hone (by simp) (by decide) z

omit hascii in
theorem words_eq_lead {y : Text} : words alphanumeric y =
    lead (y.takeWhile alphanumeric) (words alphanumeric (y.dropWhile alphanumeric)) := by
  rw [words_eq_after, words_of_forall fun c hc => List.mem_takeWhile_imp hc, lead]
  split <;> rfl

omit hascii in
theorem words_reverse_eq_lead {x : Text} : (words alphanumeric x).reverse =
    lead (x.rtakeWhile alphanumeric) (words alphanumeric (x.rdropWhile alphanumeric)).reverse := by
  rw [words_eq_before, words_of_forall (w := x.rtakeWhile alphanumeric) fun c hc => List.mem_rtakeWhile_imp hc, lead,
    List.reverse_append]
  split <;> rfl

omit hascii in
/-- A number keeps what is next to it within its word. -/
theorem NumberAt.within {x d y : Text} (h : NumberAt x d y) :
    NumberAt (x.rtakeWhile alphanumeric) d (y.takeWhile alphanumeric) where
  some := h.some
  number := h.number
  starts c hc := by
    have hsuffix := List.rtakeWhile_suffix alphanumeric x
    obtain ⟨z, hz⟩ := hsuffix
    refine h.starts c ?_
    rw [← hz, List.getLast?_append, Option.mem_def.mp hc]
    rfl
  ends c hc := by
    obtain ⟨z, hz⟩ := List.takeWhile_prefix alphanumeric (l := y)
    refine h.ends c ?_
    rw [← hz, List.head?_append, Option.mem_def.mp hc]
    rfl
  minor := h.minor

/-- The word a number stands in. -/
theorem words_number {x d y : Text} (h : NumberAt x d y) : words alphanumeric (x ++ (d ++ y)) =
    words alphanumeric (x.rdropWhile alphanumeric) ++
      (x.rtakeWhile alphanumeric ++ (d ++ y.takeWhile alphanumeric)) ::
        words alphanumeric (y.dropWhile alphanumeric) := by
  have hword : IsWord alphanumeric (x.rtakeWhile alphanumeric ++ (d ++ y.takeWhile alphanumeric)) := by
    refine ⟨by simp [h.some], fun c hc => ?_⟩
    simp only [List.mem_append] at hc
    rcases hc with hx | hd | hy
    · exact List.mem_rtakeWhile_imp hx
    · exact word_of_isDigit hascii (h.number c hd)
    · exact List.mem_takeWhile_imp hy
  rw [← words_mid (closes_rdropWhile x) hword (opens_dropWhile y)]
  congr 1
  conv_lhs => rw [← List.rdropWhile_append_rtakeWhile (p := alphanumeric) (l := x),
    ← List.takeWhile_append_dropWhile (p := alphanumeric) (l := y)]
  simp only [List.append_assoc]

/-- An age in a text is one across its words. -/
theorem ageAcross_of_states {t : Text} (h : statesAMinorAge t = true) : AgeAcross (words alphanumeric t) := by
  obtain ⟨x, d, y, rfl, hage⟩ := statesAMinorAge_iff.mp h
  refine ⟨_, _, _, _, _, words_number hascii hage.toNumberAt, hage.toNumberAt.within, ?_⟩
  rw [← words_eq_lead, ← words_reverse_eq_lead]
  exact hage.said.imp (says_of_saysAge hascii) (called_of_calledAge hascii)

/-- So is a phrase in it. -/
theorem phraseAcross_of_infix {t p : Text} (hp : p = firstOf p ++ ' ' :: secondOf p)
    (hfirst : IsWord alphanumeric (firstOf p)) (hsecond : IsWord alphanumeric (secondOf p)) (h : p <:+: t) :
    PhraseAcross (words alphanumeric t) p := by
  obtain ⟨x, y, rfl⟩ := h
  have hsplit : x ++ p ++ y = (x ++ firstOf p) ++ ' ' :: (secondOf p ++ y) := by
    conv_lhs => rw [hp]
    simp
  rw [hsplit, words_append_cons (space_not_word hascii), words_suffix hfirst, words_leading hsecond]
  exact ⟨_, _, _, _, by rw [List.append_assoc]; rfl, List.suffix_append _ _, List.prefix_append _ _⟩

end Across

end Rootmode.Worker.Screen
