import Rootmode.Worker.WholeWords

namespace Rootmode.Worker.Screen

open Lib Lib.Text Lib.Words

section Phrases

/-- What the screen's phrases have in common: two words, and no 'y' before an 'o' between them. -/
def IsPhrase (p : Text) : Prop :=
  p = firstOf p ++ ' ' :: secondOf p ∧
    ((firstOf p ≠ [] ∧ ((firstOf p).all fun c => c.toNat < 128 && c.isAlphanum) = true) ∧
      secondOf p ≠ [] ∧ ((secondOf p).all fun c => c.toNat < 128 && c.isAlphanum) = true) ∧
    ¬ ((firstOf p).getLast? = some 'y' ∧ (secondOf p).head? = some 'o')

instance (p : Text) : Decidable (IsPhrase p) := inferInstanceAs (Decidable (_ ∧ _ ∧ _))

theorem isPhrase_of_mem : ∀ p ∈ alwaysPhrases ++ minorPhrases ++ sexualPhrases, IsPhrase p := by decide

theorem isPhrase_of_always : ∀ p ∈ alwaysPhrases, IsPhrase p := fun p hp => isPhrase_of_mem p (by simp [hp])

theorem isPhrase_of_minor : ∀ p ∈ minorPhrases, IsPhrase p := fun p hp => isPhrase_of_mem p (by simp [hp])

theorem isPhrase_of_sexual : ∀ p ∈ sexualPhrases, IsPhrase p := fun p hp => isPhrase_of_mem p (by simp [hp])

variable {alphanumeric : Char → Bool} {ws : List Text} {t p : Text}
  (hascii : ∀ c : Char, c.toNat < 128 → alphanumeric c = c.isAlphanum)

theorem phrase_spaced (hp : IsPhrase p) (h : PhraseAcross ws p) : p <:+: layout spaced ws :=
  phrase_layout hp.1 hp.2.1.1.1 hp.2.1.2.1 hp.2.2 h

include hascii

theorem phrase_across (hp : IsPhrase p) (h : p <:+: t) : PhraseAcross (words alphanumeric t) p :=
  phraseAcross_of_infix hascii hp.1 (isWord_of_ascii hascii hp.2.1.1) (isWord_of_ascii hascii hp.2.1.2) h

/-- No phrase is in a text without spaces. -/
theorem no_phrase (hp : IsPhrase p) (ht : ∀ c ∈ t, alphanumeric c = true ∨ c = ',') : ¬ p <:+: t := by
  intro h
  have hmem : ' ' ∈ p := by
    rw [hp.1]
    simp
  rcases ht ' ' (h.subset hmem) with hword | hcomma
  · rw [space_not_word hascii] at hword
    cases hword
  · exact absurd hcomma (by decide)

omit hascii in
/-- A text of words with commas between them. -/
theorem mem_layout_commas (hws : ∀ w ∈ ws, IsWord alphanumeric w) :
    ∀ c ∈ layout commas ws, alphanumeric c = true ∨ c = ',' := by
  induction ws with
  | nil => simp [layout]
  | cons w ws ih =>
    have hrest := ih fun v hv => hws v (.tail _ hv)
    have hw : ∀ c ∈ w, alphanumeric c = true ∨ c = ',' := fun c hc => .inl ((hws w (.head _)).2 c hc)
    cases ws with
    | nil => exact hw
    | cons v ws =>
      intro c hc
      simp only [layout, List.mem_append, List.mem_cons] at hc
      rcases hc with hc | rfl | hc
      · exact hw c hc
      · exact .inr rfl
      · exact hrest c hc

end Phrases

section Conditions

variable (alphanumeric : Char → Bool) (t : Text) (ws : List Text)

/-- Single words decide it. -/
def Alone : Prop :=
  anyWord ws always = true ∨
    (anyWord ws minor = true ∨ ∃ w ∈ ws, statesAMinorAge w = true) ∧ anyWord ws sexual = true

/-- The words could decide it, next to each other as they are, whatever stands between them. -/
def Across : Prop :=
  (anyWord ws always = true ∨ ∃ p ∈ alwaysPhrases, PhraseAcross ws p) ∨
    (anyWord ws minor = true ∨ (∃ p ∈ minorPhrases, PhraseAcross ws p) ∨ AgeAcross ws) ∧
      (anyWord ws sexual = true ∨ ∃ p ∈ sexualPhrases, PhraseAcross ws p)

/-- A phrase of whole words. -/
def WholePhrase (p : Text) : Prop := ∃ x y, t = x ++ p ++ y ∧ Closes alphanumeric x ∧ Opens alphanumeric y

/-- An age whose marker does not go on in a longer word. -/
def WholeAge : Prop :=
  ∃ x d y, t = x ++ (d ++ y) ∧ NumberAt x d y ∧
    ((∃ m ∈ ageAfter, ∃ z, y.dropWhile isGap = m ++ z ∧ Opens alphanumeric z) ∨
      ∃ m ∈ ageBefore, ∃ z, x.rdropWhile isGap = z ++ m ∧ Closes alphanumeric z)

/-- Something turns the text away that is in it as whole words. -/
def HasCause : Prop :=
  (anyWord (words alphanumeric t) always = true ∨ ∃ p ∈ alwaysPhrases, WholePhrase alphanumeric t p) ∨
    (anyWord (words alphanumeric t) minor = true ∨ (∃ p ∈ minorPhrases, WholePhrase alphanumeric t p) ∨
        WholeAge alphanumeric t) ∧
      (anyWord (words alphanumeric t) sexual = true ∨ ∃ p ∈ sexualPhrases, WholePhrase alphanumeric t p)

end Conditions

section Decisions

variable {alphanumeric : Char → Bool} {t u : Text}

/-- A refused text stays refused with more words after it. -/
theorem refuses_append (h : refuses alphanumeric t = true) (hspace : alphanumeric ' ' = false) (more : Text) :
    refuses alphanumeric (t ++ ' ' :: more) = true := by
  have hword : ∀ {list : List Text}, anyWord (words alphanumeric t) list = true →
      anyWord (words alphanumeric (t ++ ' ' :: more)) list = true := by
    intro list hany
    rw [words_append_cons hspace, anyWord, List.any_append, Bool.or_eq_true]
    exact .inl hany
  have hphrase : ∀ {list : List Text}, (∃ p ∈ list, p <:+: t) → ∃ p ∈ list, p <:+: t ++ ' ' :: more := by
    rintro list ⟨p, hp, hin⟩
    exact ⟨p, hp, hin.trans (List.prefix_append _ _).isInfix⟩
  rw [refuses_iff] at h ⊢
  refine h.imp (Or.imp hword hphrase) (And.imp ?_ (Or.imp hword hphrase))
  exact Or.imp hword (Or.imp hphrase fun hage => states_append hage more)

variable (hascii : ∀ c : Char, c.toNat < 128 → alphanumeric c = c.isAlphanum)

include hascii

/-- A text is refused for what its words could say. -/
theorem across_of_refuses (h : refuses alphanumeric t = true) : Across (words alphanumeric t) := by
  have hphrase : ∀ {list : List Text}, (∀ p ∈ list, IsPhrase p) → (∃ p ∈ list, p <:+: t) →
      ∃ p ∈ list, PhraseAcross (words alphanumeric t) p := by
    rintro list hlist ⟨p, hp, hin⟩
    exact ⟨p, hp, phrase_across hascii (hlist p hp) hin⟩
  rw [refuses_iff] at h
  refine h.imp (Or.imp_right (hphrase isPhrase_of_always)) (And.imp ?_ (Or.imp_right (hphrase isPhrase_of_sexual)))
  exact Or.imp_right (Or.imp (hphrase isPhrase_of_minor) (ageAcross_of_states hascii))

/-- Set out with spaces, words that could be refused are. -/
theorem refuses_spaced (h : Across (words alphanumeric t)) :
    refuses alphanumeric (layout spaced (words alphanumeric t)) = true := by
  have hws : ∀ w ∈ words alphanumeric t, IsWord alphanumeric w := fun w => isWord_of_mem
  have hphrase : ∀ {list : List Text}, (∀ p ∈ list, IsPhrase p) →
      (∃ p ∈ list, PhraseAcross (words alphanumeric t) p) →
      ∃ p ∈ list, p <:+: layout spaced (words alphanumeric t) := by
    rintro list hlist ⟨p, hp, hacross⟩
    exact ⟨p, hp, phrase_spaced (hlist p hp) hacross⟩
  rw [refuses_iff, words_layout (spaced_not_word hascii) hws]
  refine h.imp (Or.imp_right (hphrase isPhrase_of_always)) (And.imp ?_ (Or.imp_right (hphrase isPhrase_of_sexual)))
  exact Or.imp_right (Or.imp (hphrase isPhrase_of_minor) (states_layout hascii hws))

/-- Set out with commas, only words that decide it alone are refused. -/
theorem alone_of_commas (h : refuses alphanumeric (layout commas (words alphanumeric t)) = true) :
    Alone (words alphanumeric t) := by
  have hws : ∀ w ∈ words alphanumeric t, IsWord alphanumeric w := fun w => isWord_of_mem
  have hchars := mem_layout_commas hws
  have hphrase : ∀ {list : List Text}, (∀ p ∈ list, IsPhrase p) →
      ¬ ∃ p ∈ list, p <:+: layout commas (words alphanumeric t) := by
    rintro list hlist ⟨p, hp, hin⟩
    exact no_phrase hascii (hlist p hp) hchars hin
  rw [refuses_iff, words_layout (commas_not_word hascii) hws] at h
  refine h.imp (Or.resolve_right · (hphrase isPhrase_of_always))
    (And.imp (Or.imp_right fun h => ?_) (Or.resolve_right · (hphrase isPhrase_of_sexual)))
  have hage := word_of_states hascii hchars (h.resolve_left (hphrase isPhrase_of_minor))
  rwa [words_layout (commas_not_word hascii) hws] at hage

/-- Words that decide it alone are refused wherever they stand. -/
theorem refuses_of_alone (h : Alone (words alphanumeric t)) : refuses alphanumeric t = true := by
  rw [refuses_iff]
  refine h.imp .inl (And.imp (Or.imp_right ?_) .inl)
  rintro ⟨w, hw, hstates⟩
  exact .inr (states_of_word hascii hw hstates)

end Decisions

section Law

variable {alphanumeric : Char → Bool} {lowercase : Text → Text} {payload : Payload}

def refused (alphanumeric : Char → Bool) (lowercase : Text → Text) (payload : Payload) : Bool :=
  !(check alphanumeric lowercase payload).isOk

/-- The screen reads whole words of a job. -/
structure WholeWords (alphanumeric : Char → Bool) (lowercase : Text → Text) (payload : Payload) : Prop where
  /-- No other job with the same words is decided otherwise. -/
  byWords : ∀ other : Payload,
    words alphanumeric (lowercase other.text) = words alphanumeric (lowercase payload.text) →
      refused alphanumeric lowercase other = refused alphanumeric lowercase payload
  /-- It is refused for something that is in it as whole words. -/
  whole : refused alphanumeric lowercase payload = true → HasCause alphanumeric (lowercase payload.text)
  /-- More words after it do not help it. -/
  stays : refused alphanumeric lowercase payload = true → ∀ (more : Text) (other : Payload),
    other.text = payload.text ++ ' ' :: more → refused alphanumeric lowercase other = true

variable (hascii : ∀ c : Char, c.toNat < 128 → alphanumeric c = c.isAlphanum)
  (hspace : ∀ a b, lowercase (a ++ ' ' :: b) = lowercase a ++ ' ' :: lowercase b)
  (hlower : ∀ t : Text, (∀ c ∈ t, c.toNat < 128 ∧ c.isUpper = false ∨ ∃ s, c ∈ lowercase s) → lowercase t = t)

include hlower in
/-- Words that come from lower case, set out anew, are in lower case. -/
theorem lowercase_layout {t : Text} {gap : Text → Text → Char}
    (hgap : ∀ w v, (gap w v).toNat < 128 ∧ (gap w v).isUpper = false) :
    lowercase (layout gap (words alphanumeric (lowercase t))) = layout gap (words alphanumeric (lowercase t)) := by
  refine hlower _ fun c hc => ?_
  have hwords : ∀ w ∈ words alphanumeric (lowercase t), ∀ c ∈ w, c ∈ lowercase t := by
    intro w hw c hc
    obtain ⟨x, y, hsplit, -, -⟩ := exists_of_mem hw
    rw [hsplit]
    simp [hc]
  revert hc
  generalize words alphanumeric (lowercase t) = ws at hwords ⊢
  induction ws with
  | nil => simp [layout]
  | cons w ws ih =>
    have hrest := ih fun v hv => hwords v (.tail _ hv)
    have hw := hwords w (.head _)
    cases ws with
    | nil => exact fun hc => .inr ⟨t, hw c hc⟩
    | cons v ws =>
      intro hc
      simp only [layout, List.mem_append, List.mem_cons] at hc
      rcases hc with hc | rfl | hc
      · exact .inr ⟨t, hw c hc⟩
      · exact .inl (hgap w v)
      · exact hrest hc

include hascii hspace hlower

end Law

section Cases

theorem toLower_of_not_isUpper {c : Char} (h : c.isUpper = false) : c.toLower = c := by
  exact dif_neg (of_decide_eq_false h)

theorem isUpper_toLower (c : Char) : c.toLower.isUpper = false := by
  cases hup : c.isUpper with
  | false => rw [toLower_of_not_isUpper hup, hup]
  | true =>
    have hval : c.toLower.val = c.val + ('a'.val - 'A'.val) := by
      exact congrArg Char.val (dif_pos (of_decide_eq_true hup))
    refine decide_eq_false fun ⟨_, hlow⟩ => ?_
    obtain ⟨hA, hZ⟩ := of_decide_eq_true hup
    rw [hval] at hlow
    grind [UInt32.toNat_add, Char.toNat_val]

theorem lower_eq_self {t : Text} (h : ∀ c ∈ t, c.toNat < 128 ∧ c.isUpper = false ∨ ∃ s, c ∈ lower s) :
    lower t = t := by
  refine (List.map_congr_left fun c hc => toLower_of_not_isUpper ?_).trans t.map_id'
  rcases h c hc with ⟨-, hnot⟩ | ⟨s, hs⟩
  · exact hnot
  · obtain ⟨d, -, rfl⟩ := List.mem_map.mp hs
    exact isUpper_toLower d

end Cases

end Rootmode.Worker.Screen
