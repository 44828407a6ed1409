import Rootmode.Core.Video
import Rootmode.Lib.FirstHit

namespace Rootmode.Desktop.Clip

open Lib Lib.Text VideoOffer

/-- What a person chose of a clip.  Anything absent is the provider's default. -/
structure ClipChoice where
  seconds : Option ℕ := none
  resolution : Option Text := none
  aspectRatio : Option Text := none
  audio : Option Bool := none
  deriving DecidableEq

/-- Up to the cent, as the screen does it. -/
def ceilCents (x : ℚ) : ℚ := ⌈x * 100 - 1 / 1_000_000_000⌉ / 100

section Screen

variable (lowercase : Text → Text) (offer : VideoOffer)

/-- The clip a choice comes to: what was chosen where it is on the menu, the default where not. -/
def shapeOf (choice : ClipChoice) (fromImage : Bool) : VideoShape :=
  { seconds :=
      match choice.seconds with
      | some s => if offer.durations = [] ∨ s ∈ offer.durations then s else offer.defaultSeconds
      | none => offer.defaultSeconds
    resolution :=
      match choice.resolution with
      | some want =>
        (offer.resolutions.find? fun r => lowercase r == lowercase want).or offer.defaultResolution
      | none => offer.defaultResolution
    aspectRatio :=
      match choice.aspectRatio with
      | some a => if a ∈ offer.aspectRatios then some a else offer.defaultAspect
      | none => offer.defaultAspect
    audio :=
      match offer.audio with
      | .always => true
      | .never => false
      | .optional => choice.audio.getD false
    fromImage }

def fits (shape : VideoShape) (r : VideoRate) : Bool :=
  r.audio == shape.audio &&
    match r.resolution, shape.resolution with
    | none, _ => true
    | some a, some b => lowercase a == lowercase b
    | some _, none => false

def dearest (rates : List VideoRate) : Option VideoRate :=
  rates.foldl (fun m r =>
    match m with
    | some m => if m.usdPerSecond ≥ r.usdPerSecond then some m else some r
    | none => some r) none

def rateFor (shape : VideoShape) : Option VideoRate :=
  let exact := dearest ((offer.rates.filter (fits lowercase shape)).filter fun r => r.fromImage == shape.fromImage)
  exact.or (dearest (offer.rates.filter (fits lowercase shape)))

/-- What a choice costs on an offer. -/
def quote (choice : ClipChoice) (fromImage : Bool) : Option ℚ :=
  let shape := shapeOf lowercase offer choice fromImage
  (rateFor lowercase offer shape).map fun rate =>
    ceilCents (max (rate.usdPerSecond * shape.seconds) rate.minimumUsd)

end Screen

/-- What was chosen, as it goes on the job. -/
def choiceOf (p : VideoParams) : ClipChoice :=
  { seconds := p.seconds, resolution := p.resolution, aspectRatio := p.aspectRatio, audio := p.audio }

/-- Whether a job starts from a picture. -/
def hasPicture (p : VideoParams) : Bool := p.fromImage.any fun s => trim s ≠ []

section Cents

variable {x x' : ℚ} {n : ℤ}

/-- To this many cents an amount comes on a bill. -/
def Billed (x : ℚ) (n : ℤ) : Prop :=
  x ≤ 0 ∧ n = 0 ∨ 0 < x ∧ n - 1 + 1 / 1_000_000 ≤ x * 100 ∧ x * 100 < n + 1 / 1_000_000

/-- To this many cents it comes on the screen. -/
def Displayed (x : ℚ) (n : ℤ) : Prop :=
  n - 1 + 1 / 1_000_000_000 < x * 100 ∧ x * 100 ≤ n + 1 / 1_000_000_000

theorem billed_iff : Billed x n ↔ Rootmode.ceilCents x = n / 100 := by
  have hcents : Rootmode.ceilCents x = n / 100 ↔ max 0 ⌊x * 100 + 999_999 / 1_000_000⌋ = n := by
    rw [ceilCents_eq, div_left_inj' (by norm_num)]
    exact_mod_cast Iff.rfl
  rw [hcents, Billed]
  by_cases hx : x ≤ 0
  · have hlt : ⌊x * 100 + 999_999 / 1_000_000⌋ < 1 := Int.floor_lt.mpr (by push_cast; linarith)
    rw [max_eq_left (by omega)]
    constructor
    · rintro (⟨-, rfl⟩ | ⟨hpos, -⟩)
      · rfl
      · exact absurd hx (not_le.mpr hpos)
    · intro hn
      exact .inl ⟨hx, hn.symm⟩
  · have hpos := not_le.mp hx
    have hnonneg : 0 ≤ ⌊x * 100 + 999_999 / 1_000_000⌋ := Int.floor_nonneg.mpr (by linarith)
    rw [max_eq_right hnonneg, Int.floor_eq_iff]
    constructor
    · rintro (⟨hle, -⟩ | ⟨-, hlo, hhi⟩)
      · exact absurd hle hx
      · constructor <;> linarith
    · rintro ⟨hlo, hhi⟩
      exact .inr ⟨hpos, by linarith, by linarith⟩

theorem displayed_iff : Displayed x n ↔ ceilCents x = n / 100 := by
  rw [ceilCents, div_left_inj' (by norm_num), Displayed]
  rw [show ((⌈x * 100 - 1 / 1_000_000_000⌉ : ℚ) = n ↔ ⌈x * 100 - 1 / 1_000_000_000⌉ = n) by
    exact_mod_cast Iff.rfl, Int.ceil_eq_iff]
  constructor
  · rintro ⟨hlo, hhi⟩
    constructor <;> linarith
  · rintro ⟨hlo, hhi⟩
    constructor <;> linarith

/-- Two amounts come to as many cents, one on the bill and one on the screen. -/
def SameCents (x x' : ℚ) : Prop := ∃ n, Billed x n ∧ Displayed x' n

theorem sameCents_iff : SameCents x x' ↔ ceilCents x' = Rootmode.ceilCents x := by
  constructor
  · rintro ⟨n, hbilled, hdisplayed⟩
    rw [displayed_iff.mp hdisplayed, billed_iff.mp hbilled]
  · intro h
    refine ⟨⌈x' * 100 - 1 / 1_000_000_000⌉, billed_iff.mpr ?_, displayed_iff.mpr rfl⟩
    rw [← h, ceilCents]

/-- One amount does, unless it is above whole cents by what only the bill drops. -/
theorem sameCents_self_iff (hx : 0 ≤ x) : SameCents x x ↔
    ¬ (1 / 1_000_000_000 < Int.fract (x * 100) ∧ Int.fract (x * 100) < 1 / 1_000_000) := by
  have hsplit := Int.floor_add_fract (x * 100)
  have hnonneg := Int.fract_nonneg (x * 100)
  have hlt := Int.fract_lt_one (x * 100)
  constructor
  · rintro ⟨n, hbilled, hlo, hhi⟩ ⟨hmore, hless⟩
    rcases hbilled with ⟨hle, -⟩ | ⟨-, hlo', hhi'⟩
    · obtain rfl := le_antisymm hle hx
      norm_num at hmore
    · have hn : n - 1 < ⌊x * 100⌋ + 1 := by
        have : ((n - 1 : ℤ) : ℚ) < ((⌊x * 100⌋ + 1 : ℤ) : ℚ) := by push_cast; linarith
        exact_mod_cast this
      have hn' : ⌊x * 100⌋ < n := by
        have : ((⌊x * 100⌋ : ℤ) : ℚ) < (n : ℚ) := by linarith
        exact_mod_cast this
      obtain rfl : n = ⌊x * 100⌋ + 1 := by omega
      push_cast at hlo'
      linarith
  · intro h
    rcases hx.eq_or_lt with rfl | hpos
    · exact ⟨0, .inl ⟨le_rfl, rfl⟩, by norm_num [Displayed]⟩
    · by_cases hmore : 1 / 1_000_000_000 < Int.fract (x * 100)
      · have hfar : 1 / 1_000_000 ≤ Int.fract (x * 100) := not_lt.mp fun hless => h ⟨hmore, hless⟩
        refine ⟨⌊x * 100⌋ + 1, .inr ⟨hpos, ?_, ?_⟩, ?_, ?_⟩ <;> push_cast <;> linarith
      · refine ⟨⌊x * 100⌋, .inr ⟨hpos, ?_, ?_⟩, ?_, ?_⟩ <;> linarith

end Cents

attribute [ext] VideoShape

section Parity

variable {lowercase : Text → Text} {o : VideoOffer} {p : VideoParams} {shape : VideoShape}

/-- What a request whose shape is on the menu resolves to. -/
theorem shapeFor_eq_ok (h : o.shapeFor p = .ok shape) :
    o.secondsFor p = .ok shape.seconds ∧
      choose "resolution" eqIgnoreAsciiCase o.resolutions o.defaultResolution p.resolution =
        .ok shape.resolution ∧
      choose "aspect ratio" (· == ·) o.aspectRatios o.defaultAspect p.aspectRatio = .ok shape.aspectRatio ∧
      o.audioFor p = .ok shape.audio ∧ hasPicture p = shape.fromImage := by
  unfold shapeFor at h
  simp only [Checked.bind_eq_ok] at h
  obtain ⟨seconds, hseconds, resolution, hresolution, aspectRatio, haspect, audio, haudio, hrest⟩ := h
  split at hrest
  · cases hrest
  · cases hrest
    exact ⟨hseconds, hresolution, haspect, haudio, rfl⟩

/-- A choice is one the menu has, as the menu spells it. -/
theorem choose_eq_ok {what : String} {same : Text → Text → Bool} {menu : List Text} {default chosen : Option Text}
    {want : Text} (h : choose what same menu default (some want) = .ok chosen) :
    ∃ found, menu.find? (same · want) = some found ∧ chosen = some found := by
  unfold choose at h
  dsimp only at h
  split at h
  · next found hfound =>
    cases h
    exact ⟨found, hfound, rfl⟩
  · split at h <;> cases h

theorem seconds_eq (h : o.secondsFor p = .ok shape.seconds) (b : Bool) :
    (shapeOf lowercase o (choiceOf p) b).seconds = shape.seconds := by
  unfold secondsFor at h
  unfold shapeOf choiceOf
  dsimp only at h ⊢
  cases hp : p.seconds with
  | none =>
    rw [hp, Option.getD_none] at h
    split at h
    · split at h
      · exact Except.ok.inj h
      · cases h
    · split at h
      · cases h
      · exact Except.ok.inj h
  | some s =>
    rw [hp, Option.getD_some] at h
    dsimp only
    split at h
    · split at h
      · next hmem =>
        rw [if_pos (.inr hmem)]
        exact Except.ok.inj h
      · cases h
    · next hnone =>
      rw [if_pos (.inl (not_not.mp hnone))]
      split at h
      · cases h
      · exact Except.ok.inj h

theorem aspectRatio_eq
    (h : choose "aspect ratio" (· == ·) o.aspectRatios o.defaultAspect p.aspectRatio = .ok shape.aspectRatio)
    (b : Bool) : (shapeOf lowercase o (choiceOf p) b).aspectRatio = shape.aspectRatio := by
  unfold shapeOf choiceOf
  dsimp only
  cases hp : p.aspectRatio with
  | none =>
    rw [hp] at h
    exact Except.ok.inj h
  | some want =>
    rw [hp] at h
    obtain ⟨found, hfound, hchosen⟩ := choose_eq_ok h
    have heq : found = want := by simpa using List.find?_some hfound
    have hmem := List.mem_of_find?_eq_some hfound
    rw [heq] at hchosen hmem
    dsimp only
    rw [if_pos hmem, hchosen]

theorem audio_eq (h : o.audioFor p = .ok shape.audio) (b : Bool) :
    (shapeOf lowercase o (choiceOf p) b).audio = shape.audio := by
  unfold audioFor at h
  unfold shapeOf choiceOf
  dsimp only
  cases haudio : o.audio with
  | never =>
    rw [haudio] at h
    dsimp only at h ⊢
    split at h
    · cases h
    · exact Except.ok.inj h
  | always =>
    rw [haudio] at h
    dsimp only at h ⊢
    split at h
    · cases h
    · exact Except.ok.inj h
  | optional =>
    rw [haudio] at h
    exact Except.ok.inj h

/-- No resolution on the menu comes before the one that is meant and differs from it in more than the
case of letters from a to z, and yet has its lower-case spelling. -/
def MenuPlain (lowercase : Text → Text) (o : VideoOffer) (p : VideoParams) : Prop :=
  ∀ want ∈ p.resolution,
    Unshadowed (eqIgnoreAsciiCase · want) (fun r => lowercase r == lowercase want) o.resolutions

theorem resolution_eq_iff (hlower : ∀ a b, eqIgnoreAsciiCase a b = true → lowercase a = lowercase b)
    (h : choose "resolution" eqIgnoreAsciiCase o.resolutions o.defaultResolution p.resolution =
      .ok shape.resolution) (b : Bool) :
    (shapeOf lowercase o (choiceOf p) b).resolution = shape.resolution ↔ MenuPlain lowercase o p := by
  unfold shapeOf choiceOf MenuPlain
  dsimp only
  cases hp : p.resolution with
  | none =>
    rw [hp] at h
    exact iff_of_true (Except.ok.inj h) (by simp)
  | some want =>
    rw [hp] at h
    obtain ⟨found, hfound, hchosen⟩ := choose_eq_ok h
    have hsame : eqIgnoreAsciiCase found want = true :=
      List.find?_some (p := fun r => eqIgnoreAsciiCase r want) hfound
    have himp : ∀ r, eqIgnoreAsciiCase r want = true → (lowercase r == lowercase want) = true :=
      fun r hr => beq_iff_eq.mpr (hlower r want hr)
    have hiff := Unshadowed.find?_eq_iff (l := o.resolutions) himp
    have hsome : (o.resolutions.find? fun r => lowercase r == lowercase want).isSome :=
      List.find?_isSome.mpr ⟨found, List.mem_of_find?_eq_some hfound, himp found hsame⟩
    obtain ⟨found', hfound'⟩ := Option.isSome_iff_exists.mp hsome
    rw [hfound, hfound'] at hiff
    dsimp only
    rw [hfound', hchosen, Option.some_or]
    simp only [Option.mem_some_iff, forall_eq']
    rw [← hiff]
    exact eq_comm

/-- The rates the screen quotes a shape by. -/
def preferred (lowercase : Text → Text) (o : VideoOffer) (shape : VideoShape) : List VideoRate :=
  let fitting := o.rates.filter (fits lowercase shape)
  let exact := fitting.filter fun r => r.fromImage == shape.fromImage
  if exact = [] then fitting else exact

theorem dearest_eq (rates : List VideoRate) : dearest rates = VideoOffer.dearest rates := rfl

theorem rateFor_eq : rateFor lowercase o shape = (preferred lowercase o shape).argmax VideoRate.usdPerSecond := by
  unfold rateFor preferred
  dsimp only
  rw [dearest_eq, dearest_eq, dearest_eq_argmax, dearest_eq_argmax]
  split
  · next hnone => rw [hnone, List.argmax_nil, Option.none_or]
  · next hsome =>
    have hne : List.argmax VideoRate.usdPerSecond _ ≠ none := List.argmax_eq_none.not.mpr hsome
    obtain ⟨m, hm⟩ := Option.ne_none_iff_exists'.mp hne
    rw [hm, Option.some_or]

/-- The first of the dearest rates, by the letters from a to z and by lower case, come to as many
cents. -/
def RatesMatch (lowercase : Text → Text) (o : VideoOffer) (shape : VideoShape) : Prop :=
  Option.Rel (fun d d' : VideoRate => SameCents (d.cost shape.seconds) (d'.cost shape.seconds))
    ((o.preferred shape).argmax VideoRate.usdPerSecond)
    ((preferred lowercase o shape).argmax VideoRate.usdPerSecond)

theorem quote_eq_iff {choice : ClipChoice} {b : Bool} (h : shapeOf lowercase o choice b = shape) :
    quote lowercase o choice b = o.quoteUsd shape ↔ RatesMatch lowercase o shape := by
  have hquote : quote lowercase o choice b =
      ((preferred lowercase o shape).argmax VideoRate.usdPerSecond).map fun d => ceilCents (d.cost shape.seconds) := by
    rw [quote, h, rateFor_eq]
    rfl
  have hbill : o.quoteUsd shape =
      ((o.preferred shape).argmax VideoRate.usdPerSecond).map fun d =>
        Rootmode.ceilCents (d.cost shape.seconds) := by
    rw [quoteUsd, VideoOffer.rateFor_eq]
    rfl
  rw [hquote, hbill, RatesMatch]
  cases (o.preferred shape).argmax VideoRate.usdPerSecond <;>
    cases (preferred lowercase o shape).argmax VideoRate.usdPerSecond
  · exact iff_of_true rfl .none
  · exact iff_of_false (by simp) (by rintro ⟨⟩)
  · exact iff_of_false (by simp) (by rintro ⟨⟩)
  · rw [Option.map_some, Option.map_some, Option.some_inj, ← sameCents_iff]
    constructor
    · intro hsame
      exact .some hsame
    · rintro ⟨hsame⟩
      exact hsame

/-- The screen makes of a choice the clip the worker makes of it, at the worker's price, exactly where
the menu is plain and the rates match. -/
theorem parity_iff (hlower : ∀ a b, eqIgnoreAsciiCase a b = true → lowercase a = lowercase b)
    (h : o.shapeFor p = .ok shape) :
    shapeOf lowercase o (choiceOf p) (hasPicture p) = shape ∧
        quote lowercase o (choiceOf p) (hasPicture p) = o.quoteUsd shape ↔
      MenuPlain lowercase o p ∧ RatesMatch lowercase o shape := by
  obtain ⟨hseconds, hresolution, haspect, haudio, hpicture⟩ := shapeFor_eq_ok h
  have hshape : shapeOf lowercase o (choiceOf p) (hasPicture p) = shape ↔ MenuPlain lowercase o p := by
    rw [← resolution_eq_iff hlower hresolution (hasPicture p)]
    constructor
    · intro heq
      rw [heq]
    · intro heq
      exact VideoShape.ext (seconds_eq hseconds _) heq (aspectRatio_eq haspect _) (audio_eq haudio _) hpicture
  constructor
  · rintro ⟨heq, hquote⟩
    exact ⟨hshape.mp heq, (quote_eq_iff heq).mp hquote⟩
  · rintro ⟨hplain, hmatch⟩
    have heq := hshape.mpr hplain
    exact ⟨heq, (quote_eq_iff heq).mpr hmatch⟩

/-- Two hundredths of a dollar a second and a little more. -/
def fiveSeconds : VideoOffer :=
  { durations := [5], defaultSeconds := 5, resolutions := [ofString "720p"], defaultResolution := none
    aspectRatios := [], defaultAspect := none, audio := .never, firstFrame := false
    rates := [ { resolution := none, audio := false, fromImage := false
                 usdPerSecond := 200_000_001 / 10_000_000_000, minimumUsd := 0 } ] }

def fiveSecondsShape : VideoShape :=
  { seconds := 5, resolution := none, aspectRatio := none, audio := false, fromImage := false }

theorem fiveSeconds_shape : fiveSeconds.shapeFor {} = .ok fiveSecondsShape := by decide

theorem parity_iff_fiveSeconds :
    shapeOf lower fiveSeconds (choiceOf {}) (hasPicture {}) = fiveSecondsShape ∧
        quote lower fiveSeconds (choiceOf {}) (hasPicture {}) = fiveSeconds.quoteUsd fiveSecondsShape ↔
      MenuPlain lower fiveSeconds {} ∧ RatesMatch lower fiveSeconds fiveSecondsShape :=
  parity_iff (fun a b h => (eqIgnoreAsciiCase_iff a b).mp h) fiveSeconds_shape

/-- The screen asks eleven cents for what is billed at ten. -/
theorem quote_differs :
    fiveSeconds.shapeFor {} = .ok fiveSecondsShape ∧
      ¬ (shapeOf lower fiveSeconds (choiceOf {}) (hasPicture {}) = fiveSecondsShape ∧
        quote lower fiveSeconds (choiceOf {}) (hasPicture {}) = fiveSeconds.quoteUsd fiveSecondsShape) := by
  have hquotes : quote lower fiveSeconds (choiceOf {}) (hasPicture {}) = some (11 / 100) ∧
      fiveSeconds.quoteUsd fiveSecondsShape = some (10 / 100) := by decide +kernel
  refine ⟨fiveSeconds_shape, ?_⟩
  rintro ⟨-, heq⟩
  rw [hquotes.1, hquotes.2] at heq
  norm_num at heq

end Parity

end Rootmode.Desktop.Clip
