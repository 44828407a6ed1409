import Rootmode.Worker.OpenRouter
import Rootmode.Worker.Catalogue
import Rootmode.Desktop.Clip

namespace Rootmode.OpenRouter

open Lib Lib.Text

section Cents

variable {x y : ℚ}

/-- A whole number of cents stays what it is. -/
theorem ceilCents_cents (n : ℕ) : ceilCents (n / 100) = n / 100 := by
  have hfloor : ⌊(n / 100 : ℚ) * 100 + 999_999 / 1_000_000⌋ = n := by
    refine Int.floor_eq_iff.mpr ?_
    push_cast
    constructor <;> linarith
  rw [ceilCents_eq, hfloor, max_eq_right (Int.natCast_nonneg n)]
  push_cast
  rfl

theorem ceilCents_whole (x : ℚ) : ∃ n : ℕ, ceilCents x = n / 100 := by
  refine ⟨(max 0 ⌊x * 100 + 999_999 / 1_000_000⌋).toNat, ?_⟩
  have hcast : (((max 0 ⌊x * 100 + 999_999 / 1_000_000⌋).toNat : ℤ) : ℚ) =
      (max 0 ⌊x * 100 + 999_999 / 1_000_000⌋ : ℤ) := by
    rw [Int.toNat_of_nonneg (le_max_left _ _)]
  rw [ceilCents_eq, ← hcast]
  rfl

theorem ceilCents_ceilCents (x : ℚ) : ceilCents (ceilCents x) = ceilCents x := by
  obtain ⟨n, hn⟩ := ceilCents_whole x
  rw [hn, ceilCents_cents]

/-- What is dropped is less than a millionth of a cent. -/
theorem le_ceilCents_add (x : ℚ) : x ≤ ceilCents x + 1 / 100_000_000 := by
  rw [ceilCents_eq]
  have hlt := Int.lt_floor_add_one (x * 100 + 999_999 / 1_000_000)
  have hmax : (⌊x * 100 + 999_999 / 1_000_000⌋ : ℚ) ≤ (max 0 ⌊x * 100 + 999_999 / 1_000_000⌋ : ℤ) := by
    exact_mod_cast le_max_right _ _
  linarith

end Cents

theorem marked_pos (markup : ℚ) : 0 < marked markup := by
  unfold marked
  split
  · assumption
  · exact one_pos

section Rates

variable {skus : Skus} {res : Text} {resolution resolution' : Option Text} {audio fromImage : Bool} {d : Dialect}
  {price : ℚ} {rate : ℚ × ℚ}

theorem foldl_some {f : Option ℚ → ℚ → Option ℚ} (hf : ∀ m v, f (some m) v = some (max m v)) (l : List ℚ) (best : ℚ) :
    l.foldl f (some best) = some (l.foldl max best) := by
  induction l generalizing best with
  | nil => rfl
  | cons v l ih =>
    rw [List.foldl_cons, List.foldl_cons, hf]
    exact ih (max best v)

/-- The price picked is the largest. -/
theorem pickPrice_eq_max (dialect : Text → Bool) :
    pickPrice skus res audio fromImage dialect = (prices skus res audio fromImage dialect).max? := by
  unfold pickPrice
  cases prices skus res audio fromImage dialect with
  | nil => rfl
  | cons v l => exact foldl_some (fun _ _ => rfl) l v

theorem pos_of_mem_prices {dialect : Text → Bool} (h : price ∈ prices skus res audio fromImage dialect) : 0 < price :=
  of_decide_eq_true (List.mem_filter.mp h).2

theorem pixels_pos (r : Text) : 0 < pixels r := by
  unfold pixels
  dsimp only
  split
  · norm_num
  · split
    · norm_num
    · split
      · norm_num
      · split <;> norm_num

theorem Dialect.perSecond_mono {x y : ℚ} (h : x ≤ y) : d.perSecond res x ≤ d.perSecond res y := by
  have hpixels := pixels_pos res
  cases d with
  | seconds => exact h
  | cents =>
    change x / 100 ≤ y / 100
    linarith
  | tokens =>
    change x * pixels res * 24 / 1024 * videoTokenHeadroom ≤ y * pixels res * 24 / 1024 * videoTokenHeadroom
    have hscaled : x * pixels res ≤ y * pixels res := mul_le_mul_of_nonneg_right h hpixels.le
    have hheadroom : videoTokenHeadroom = 104 / 100 := rfl
    rw [hheadroom]
    linarith

/-- The resolution a rate is looked up by. -/
def resolved (resolution : Option Text) : Text := lower (resolution.getD videoResolution)

/-- The first dialect the catalogue prices a clip in. -/
def firstDialect (skus : Skus) (resolution : Option Text) (audio fromImage : Bool) : Option Dialect :=
  [.seconds, .cents, .tokens].find? fun d => (pickPrice skus (resolved resolution) audio fromImage d.speaks).isSome

theorem shapeRateUsd_of_first (h : firstDialect skus resolution audio fromImage = some d) :
    shapeRateUsd skus resolution audio fromImage =
      (pickPrice skus (resolved resolution) audio fromImage d.speaks).map fun price =>
        (d.perSecond (resolved resolution) price, d.minimum skus) := by
  unfold firstDialect at h
  unfold shapeRateUsd
  rw [resolved] at h ⊢
  dsimp only
  rw [List.find?_cons] at h
  cases hseconds : pickPrice skus (lower (resolution.getD videoResolution)) audio fromImage Dialect.seconds.speaks with
  | some price =>
    rw [hseconds] at h
    cases h
    rw [hseconds]
    rfl
  | none =>
    rw [hseconds] at h
    rw [Option.isSome_none] at h
    dsimp only at h
    rw [List.find?_cons] at h
    cases hcents : pickPrice skus (lower (resolution.getD videoResolution)) audio fromImage Dialect.cents.speaks with
    | some price =>
      rw [hcents] at h
      cases h
      rw [hcents]
      rfl
    | none =>
      rw [hcents, Option.isSome_none] at h
      dsimp only at h
      rw [List.find?_cons] at h
      cases htokens :
          pickPrice skus (lower (resolution.getD videoResolution)) audio fromImage Dialect.tokens.speaks with
      | some price =>
        rw [htokens] at h
        cases h
        rw [htokens]
        rfl
      | none =>
        rw [htokens] at h
        cases h

/-- A clip may be billed upstream at a price the catalogue lists for it. -/
structure BilledUnder (skus : Skus) (resolution : Option Text) (audio fromImage : Bool) (d : Dialect) (price : ℚ) :
    Prop where
  first : firstDialect skus resolution audio fromImage = some d
  listed : price ∈ prices skus (resolved resolution) audio fromImage d.speaks

/-- No such price is above the rate. -/
theorem BilledUnder.le_rate (h : BilledUnder skus resolution audio fromImage d price) :
    ∃ rate, shapeRateUsd skus resolution audio fromImage = some rate ∧
      d.perSecond (resolved resolution) price ≤ rate.1 ∧ d.minimum skus = rate.2 := by
  have hrate := shapeRateUsd_of_first h.first
  rw [pickPrice_eq_max] at hrate
  cases hmax : (prices skus (resolved resolution) audio fromImage d.speaks).max? with
  | none =>
    rw [List.max?_eq_none_iff] at hmax
    exact absurd h.listed (hmax ▸ List.not_mem_nil)
  | some dearest =>
    rw [hmax] at hrate
    refine ⟨_, hrate, Dialect.perSecond_mono ?_, rfl⟩
    exact (List.max?_eq_some_iff.mp hmax).2 price h.listed

theorem shapeRateUsd_congr (h : resolved resolution = resolved resolution') :
    shapeRateUsd skus resolution audio fromImage = shapeRateUsd skus resolution' audio fromImage := by
  unfold shapeRateUsd
  rw [resolved, resolved] at h
  rw [h]

end Rates

section Menu

variable {v : ListedVideo} {markup : ℚ} {o : VideoOffer} {p : VideoParams} {shape : VideoShape} {r : VideoRate}

/-- What an offer is made of. -/
theorem offer_eq_some (h : v.offer markup = some o) :
    o.defaultSeconds = v.duration ∧ o.resolutions = v.resolutions ∧ o.defaultResolution = v.resolution ∧
      o.defaultAspect = v.aspect ∧ o.audio = v.audioOffer ∧ o.firstFrame = v.takesFirstFrame ∧
      o.rates = v.rates markup := by
  unfold ListedVideo.offer at h
  by_cases hrates : v.rates markup = []
  · rw [if_pos hrates] at h
    cases h
  · rw [if_neg hrates] at h
    cases h
    exact ⟨rfl, rfl, rfl, rfl, rfl, rfl, rfl⟩

theorem mem_rates : r ∈ v.rates markup ↔ r.resolution ∈ v.resChoices ∧ r.audio ∈ v.sounds ∧ r.fromImage ∈ v.froms ∧
    ∃ rate, shapeRateUsd v.skus r.resolution r.audio r.fromImage = some rate ∧
      r.usdPerSecond = rate.1 * marked markup ∧ r.minimumUsd = rate.2 * marked markup := by
  unfold ListedVideo.rates
  simp only [List.mem_flatMap, List.mem_filterMap, Option.map_eq_some_iff]
  constructor
  · rintro ⟨res, hres, sound, hsound, fromImage, hfrom, rate, hrate, rfl⟩
    exact ⟨hres, hsound, hfrom, rate, hrate, rfl, rfl⟩
  · rintro ⟨hres, hsound, hfrom, rate, hrate, husd, hmin⟩
    refine ⟨_, hres, _, hsound, _, hfrom, rate, hrate, ?_⟩
    cases r
    cases husd
    cases hmin
    rfl

/-- A clip the listing can be asked for. -/
structure OnMenu (v : ListedVideo) (shape : VideoShape) : Prop where
  resolution : shape.resolution ∈ v.resChoices
  audio : shape.audio ∈ v.sounds
  fromImage : shape.fromImage ∈ v.froms

theorem mem_resChoices {a : Text} (h : a ∈ v.resolutions) : some a ∈ v.resChoices := by
  rw [ListedVideo.resChoices, if_neg (List.ne_nil_of_mem h)]
  exact List.mem_map_of_mem h

theorem resolution_mem (v : ListedVideo) : v.resolution ∈ v.resChoices := by
  cases hres : v.resolution with
  | none =>
    obtain ⟨-, hhead⟩ := Option.or_eq_none_iff.mp hres
    rw [ListedVideo.resChoices, if_pos (List.head?_eq_none_iff.mp hhead)]
    exact .head _
  | some a =>
    refine mem_resChoices ?_
    rcases Option.or_eq_some_iff.mp hres with hfound | ⟨-, hhead⟩
    · exact List.mem_of_find?_eq_some hfound
    · exact List.mem_of_mem_head? hhead

theorem firstFrame_of_shapeFor (h : o.shapeFor p = .ok shape) (hfrom : shape.fromImage = true) :
    o.firstFrame = true := by
  unfold VideoOffer.shapeFor at h
  simp only [Checked.bind_eq_ok] at h
  obtain ⟨seconds, -, resolution, -, aspectRatio, -, audio, -, hrest⟩ := h
  split at hrest
  · cases hrest
  · next hpicture =>
    cases hrest
    rw [Bool.and_eq_true, not_and, Bool.not_eq_true'] at hpicture
    exact Bool.not_eq_false _ ▸ hpicture hfrom

theorem onMenu_of_shapeFor (h : v.offer markup = some o) (hshape : o.shapeFor p = .ok shape) : OnMenu v shape := by
  obtain ⟨-, hresolutions, hresolution, -, haudio, hfirst, -⟩ := offer_eq_some h
  obtain ⟨-, hchosen, -, hsound, hpicture⟩ := Desktop.Clip.shapeFor_eq_ok hshape
  refine ⟨?_, ?_, ?_⟩
  · cases hp : p.resolution with
    | none =>
      rw [hp] at hchosen
      have hdefault : o.defaultResolution = shape.resolution := Except.ok.inj hchosen
      rw [← hdefault, hresolution]
      exact resolution_mem v
    | some want =>
      rw [hp] at hchosen
      obtain ⟨found, hfound, hchosen⟩ := Desktop.Clip.choose_eq_ok hchosen
      rw [hchosen]
      exact mem_resChoices (hresolutions ▸ List.mem_of_find?_eq_some hfound)
  · unfold VideoOffer.audioFor at hsound
    unfold ListedVideo.sounds
    rw [haudio] at hsound
    cases hoffer : v.audioOffer with
    | never =>
      rw [hoffer] at hsound
      dsimp only at hsound ⊢
      split at hsound
      · cases hsound
      · exact List.mem_singleton.mpr (Except.ok.inj hsound).symm
    | always =>
      rw [hoffer] at hsound
      dsimp only at hsound ⊢
      split at hsound
      · cases hsound
      · exact List.mem_singleton.mpr (Except.ok.inj hsound).symm
    | optional =>
      dsimp only
      cases shape.audio
      · exact .head _
      · exact .tail _ (.head _)
  · unfold ListedVideo.froms
    cases hfrom : shape.fromImage with
    | false => split <;> exact .head _
    | true =>
      have htakes : v.takesFirstFrame = true := by
        rw [← hfirst]
        exact firstFrame_of_shapeFor hshape hfrom
      rw [if_pos htakes]
      exact .tail _ (.head _)

theorem resolved_of_eqIgnoreCase {a b : Text} (h : eqIgnoreAsciiCase a b = true) :
    resolved (some a) = resolved (some b) :=
  (eqIgnoreAsciiCase_iff a b).mp h

/-- A rate that fits a clip on the menu is that of its resolution and sound. -/
theorem rate_of_fits (hmenu : OnMenu v shape) (hr : r ∈ v.rates markup) (hfits : VideoOffer.fits shape r = true) :
    ∃ rate, shapeRateUsd v.skus shape.resolution shape.audio r.fromImage = some rate ∧
      r.usdPerSecond = rate.1 * marked markup ∧ r.minimumUsd = rate.2 * marked markup := by
  obtain ⟨hres, -, -, rate, hrate, husd, hmin⟩ := mem_rates.mp hr
  unfold VideoOffer.fits at hfits
  obtain ⟨haudio, hsame⟩ := (Bool.and_eq_true _ _).mp hfits
  rw [beq_iff_eq.mp haudio] at hrate
  refine ⟨rate, ?_, husd, hmin⟩
  rw [← hrate]
  apply shapeRateUsd_congr
  have hmenures := hmenu.resolution
  unfold ListedVideo.resChoices at hres hmenures
  split at hres
  · next hnone =>
    rw [if_pos hnone] at hmenures
    rw [List.mem_singleton.mp hres, List.mem_singleton.mp hmenures]
  · next hsome =>
    rw [if_neg hsome] at hmenures
    obtain ⟨a, -, ha⟩ := List.mem_map.mp hres
    obtain ⟨b, -, hb⟩ := List.mem_map.mp hmenures
    rw [← ha, ← hb] at hsame ⊢
    exact (resolved_of_eqIgnoreCase hsame).symm

/-- The rate of a clip's own shape is there, and fits. -/
theorem exists_fits (hmenu : OnMenu v shape) {fromImage : Bool} (hfrom : fromImage ∈ v.froms) {rate : ℚ × ℚ}
    (hrate : shapeRateUsd v.skus shape.resolution shape.audio fromImage = some rate) :
    ∃ r ∈ v.rates markup, VideoOffer.fits shape r = true ∧ r.fromImage = fromImage := by
  refine ⟨{ resolution := shape.resolution, audio := shape.audio, fromImage
            usdPerSecond := rate.1 * marked markup, minimumUsd := rate.2 * marked markup }, ?_, ?_, rfl⟩
  · exact mem_rates.mpr ⟨hmenu.resolution, hmenu.audio, hfrom, rate, hrate, rfl, rfl⟩
  · unfold VideoOffer.fits
    cases shape.resolution with
    | none => exact (Bool.and_true _).trans (beq_self_eq_true _)
    | some a => exact (Bool.and_eq_true _ _).mpr ⟨beq_self_eq_true _, eqIgnoreAsciiCase_refl a⟩

/-- What a second of a clip costs upstream and the least it does: where its beginning is not priced, as the other
one. -/
def ListedVideo.rateFor (v : ListedVideo) (shape : VideoShape) : Option (ℚ × ℚ) :=
  (shapeRateUsd v.skus shape.resolution shape.audio shape.fromImage).or
    (if v.takesFirstFrame then shapeRateUsd v.skus shape.resolution shape.audio (!shape.fromImage) else none)

theorem not_mem_froms (h : shape.fromImage ∈ v.froms) {fromImage : Bool} (hfrom : fromImage ∈ v.froms)
    (hne : fromImage ≠ shape.fromImage) : fromImage = !shape.fromImage ∧ v.takesFirstFrame = true := by
  unfold ListedVideo.froms at h hfrom
  split at h
  · next htakes => exact ⟨Bool.eq_not.mpr hne, htakes⟩
  · next htakes =>
    rw [if_neg htakes] at hfrom
    exact absurd ((List.mem_singleton.mp hfrom).trans (List.mem_singleton.mp h).symm) hne

/-- The rates a clip is quoted by are all the listing's one for it. -/
theorem preferred_rates (hmenu : OnMenu v shape) (horates : o.rates = v.rates markup) :
    (∀ r ∈ o.preferred shape, ∃ rate, v.rateFor shape = some rate ∧
      r.usdPerSecond = rate.1 * marked markup ∧ r.minimumUsd = rate.2 * marked markup) ∧
      ((v.rateFor shape).isSome = true → o.preferred shape ≠ []) := by
  have hfitting : ∀ r, r ∈ o.rates.filter (VideoOffer.fits shape) ↔
      r ∈ v.rates markup ∧ VideoOffer.fits shape r = true := by
    intro r
    rw [List.mem_filter, horates]
  unfold VideoOffer.preferred
  dsimp only
  cases hown : shapeRateUsd v.skus shape.resolution shape.audio shape.fromImage with
  | some rate =>
    have hrate : v.rateFor shape = some rate := by
      rw [ListedVideo.rateFor, hown, Option.some_or]
    have hexact : ((o.rates.filter (VideoOffer.fits shape)).filter fun r => r.fromImage == shape.fromImage) ≠ [] := by
      obtain ⟨r, hr, hfits, hfrom⟩ := @exists_fits v markup shape hmenu _ hmenu.fromImage _ hown
      exact List.ne_nil_of_mem (List.mem_filter.mpr ⟨(hfitting r).mpr ⟨hr, hfits⟩, beq_iff_eq.mpr hfrom⟩)
    rw [if_neg hexact]
    refine ⟨fun r hr => ?_, fun _ => hexact⟩
    obtain ⟨hr, hfrom⟩ := List.mem_filter.mp hr
    obtain ⟨hr, hfits⟩ := (hfitting r).mp hr
    obtain ⟨rate', hrate', husd, hmin⟩ := rate_of_fits hmenu hr hfits
    rw [beq_iff_eq.mp hfrom, hown] at hrate'
    cases hrate'
    exact ⟨rate, hrate, husd, hmin⟩
  | none =>
    have hrate : v.rateFor shape =
        if v.takesFirstFrame then shapeRateUsd v.skus shape.resolution shape.audio (!shape.fromImage) else none := by
      rw [ListedVideo.rateFor, hown, Option.none_or]
    have hexact : ((o.rates.filter (VideoOffer.fits shape)).filter fun r => r.fromImage == shape.fromImage) = [] := by
      refine List.filter_eq_nil_iff.mpr fun r hr hfrom => ?_
      obtain ⟨hr, hfits⟩ := (hfitting r).mp hr
      obtain ⟨rate', hrate', -, -⟩ := rate_of_fits hmenu hr hfits
      rw [beq_iff_eq.mp hfrom, hown] at hrate'
      cases hrate'
    rw [if_pos hexact, hrate]
    constructor
    · intro r hr
      have hne : r.fromImage ≠ shape.fromImage := fun heq =>
        List.filter_eq_nil_iff.mp hexact r hr (beq_iff_eq.mpr heq)
      obtain ⟨hr, hfits⟩ := (hfitting r).mp hr
      obtain ⟨heq, htakes⟩ := not_mem_froms hmenu.fromImage (mem_rates.mp hr).2.2.1 hne
      obtain ⟨rate', hrate', husd, hmin⟩ := rate_of_fits hmenu hr hfits
      rw [heq] at hrate'
      exact ⟨rate', by rw [if_pos htakes, hrate'], husd, hmin⟩
    · intro hsome
      split at hsome
      · next htakes =>
        obtain ⟨rate', hrate'⟩ := Option.isSome_iff_exists.mp hsome
        have hfrom : (!shape.fromImage) ∈ v.froms := by
          unfold ListedVideo.froms
          rw [if_pos htakes]
          cases shape.fromImage
          · exact .tail _ (.head _)
          · exact .head _
        obtain ⟨r, hr, hfits, -⟩ := @exists_fits v markup shape hmenu _ hfrom _ hrate'
        exact List.ne_nil_of_mem ((hfitting r).mpr ⟨hr, hfits⟩)
      · cases hsome

/-- A clip on the menu is quoted at what it costs upstream and the margin, up to the cent. -/
theorem quote_of_offer (hmenu : OnMenu v shape) (horates : o.rates = v.rates markup) :
    o.quoteUsd shape = (v.rateFor shape).map fun rate =>
      ceilCents (max (rate.1 * marked markup * shape.seconds) (rate.2 * marked markup)) := by
  obtain ⟨hall, hnone⟩ := preferred_rates hmenu horates
  rw [VideoOffer.quoteUsd, VideoOffer.rateFor_eq]
  cases hd : (o.preferred shape).argmax VideoRate.usdPerSecond with
  | some r =>
    obtain ⟨rate, hrate, husd, hmin⟩ := hall r (List.argmax_mem hd)
    rw [hrate, Option.map_some, Option.map_some, husd, hmin]
  | none =>
    rw [List.argmax_eq_none] at hd
    cases hrate : v.rateFor shape with
    | none => rfl
    | some rate => exact absurd hd (hnone (by rw [hrate]; rfl))

end Menu

section Bill

open Worker (JobPayload.model named billMicros)

variable {v : ListedVideo} {markup : ℚ} {o : VideoOffer} {p : VideoParams} {shape : VideoShape} {quote : ℚ}

theorem roundAway_natCast (n : ℕ) : roundAway n = n := by
  unfold roundAway
  rw [if_pos (Nat.cast_nonneg n)]
  exact Int.floor_eq_iff.mpr ⟨by push_cast; linarith, by push_cast; linarith⟩

/-- What a clip quoted at whole cents is billed at most. -/
def flatOf (cents : ℕ) : ℕ := min (max (10_000 * cents) 1) (2 ^ 64 - 1)

theorem castWord_natCast (n : ℕ) : castWord 64 n = min n (2 ^ 64 - 1) := by
  unfold castWord
  rw [Int.floor_natCast, Int.toNat_natCast]

theorem flat_eq (cents : ℕ) : castWord 64 (max (roundAway ((cents / 100 : ℚ) * 1_000_000)) 1) = flatOf cents := by
  have hmicros : (cents / 100 : ℚ) * 1_000_000 = ((10_000 * cents : ℕ) : ℚ) := by
    push_cast
    ring
  have hmax : max (((10_000 * cents : ℕ) : ℤ) : ℚ) 1 = ((max (10_000 * cents) 1 : ℕ) : ℚ) := by
    push_cast
    rfl
  rw [hmicros, roundAway_natCast, hmax, castWord_natCast, flatOf]

theorem flatOf_pos (cents : ℕ) : 1 ≤ flatOf cents := by
  unfold flatOf
  omega

/-- What a clip cost upstream and the margin is at most a micro over its quote. -/
theorem floor_le_flatOf {cost markup : ℚ} {cents : ℕ} (h : cost * marked markup ≤ cents / 100 + 1 / 100_000_000) :
    billFloorMicros cost markup ≤ flatOf cents + 1 ∧ (cents = 0 → billFloorMicros cost markup ≤ 1) := by
  have hceil : ⌈cost * marked markup * 1_000_000⌉ ≤ 10_000 * cents + 1 := by
    refine Int.ceil_le.mpr ?_
    push_cast
    linarith
  have hmax : (max ⌈cost * marked markup * 1_000_000⌉ 0 : ℤ) ≤ ((10_000 * cents + 1 : ℕ) : ℤ) := by
    push_cast
    omega
  have hfloor : billFloorMicros cost markup ≤ 10_000 * cents + 1 := by
    refine castWord_le 64 ?_
    exact_mod_cast hmax
  have hword : billFloorMicros cost markup < 2 ^ 64 := castWord_lt 64 _
  constructor
  · unfold flatOf
    omega
  · rintro rfl
    exact hfloor

variable {cfg : Worker.Config} {m : ModelDescriptor} {result : Worker.JobResult} {cost : ℚ} {d : Dialect} {price : ℚ}

/-- The node that lists the model prices a clip at its quote. -/
theorem billPrice_eq (hvideo : m.video = some o)
    (hfound : ((JobPayload.model (.video p)).bind fun name => cfg.models.find? (named name)) = some m)
    (hshape : o.shapeFor p = .ok shape) (hquote : o.quoteUsd shape = some quote) (hkind : result.kind = .video) :
    Worker.billPrice cfg (.video p) result = Price.new quote := by
  have hclip : Worker.clipQuote (.video p) m = some quote := by
    unfold Worker.clipQuote
    simp only [hvideo, hshape, hquote]
  rw [Worker.billPrice, hkind]
  dsimp only
  rw [Worker.advertisedPrice, Worker.listedPrice, hfound]
  dsimp only
  rw [hclip]
  rfl

/-- A bill is what the backend reports, up to the quote, or the quote where it reports nothing. -/
theorem billMicros_eq {cents : ℕ} (hprice : Worker.billPrice cfg (.video p) result = Price.new (cents / 100 : ℚ))
    (hkind : result.kind = .video) :
    billMicros cfg (.video p) result =
      if cents = 0 then 0
      else (result.minBillMicros.map fun floor => max (min floor (flatOf cents)) 1).getD (flatOf cents) := by
  have hamount : (Price.new (cents / 100 : ℚ)).amount = cents / 100 := by
    rw [Price.new]
    exact ceilCents_cents cents
  have hfree : (Price.new (cents / 100 : ℚ)).isFree ↔ cents = 0 := by
    unfold Price.isFree
    rw [hamount]
    constructor
    · rintro ⟨hle, -⟩
      have hnum : (cents : ℚ) ≤ 0 := by linarith
      exact_mod_cast Nat.le_zero.mp (by exact_mod_cast hnum)
    · rintro rfl
      refine ⟨by norm_num, le_rfl, le_rfl⟩
  unfold billMicros
  simp only [hprice, hkind, hamount, flat_eq]
  by_cases hzero : cents = 0
  · rw [if_pos (hfree.mpr hzero), if_pos hzero]
  · rw [if_neg (hfree.not.mpr hzero), if_neg hzero]
    cases result.minBillMicros with
    | none | some _ => rfl

/-- A request that makes no choice. -/
def Undecided (p : VideoParams) : Prop :=
  p.seconds = none ∧ p.resolution = none ∧ p.aspectRatio = none ∧ p.audio = none

/-- It comes to the default shape, from a picture or not. -/
theorem shape_of_undecided (h : Undecided p) (hshape : o.shapeFor p = .ok shape) :
    shape = { o.defaultShape with fromImage := shape.fromImage } := by
  obtain ⟨hseconds, hresolution, haspect, haudio⟩ := h
  obtain ⟨hs, hr, ha, hsound, -⟩ := Desktop.Clip.shapeFor_eq_ok hshape
  have hseconds' : shape.seconds = o.defaultSeconds := by
    unfold VideoOffer.secondsFor at hs
    rw [hseconds] at hs
    dsimp only [Option.getD_none] at hs
    split at hs
    · split at hs
      · exact (Except.ok.inj hs).symm
      · cases hs
    · split at hs
      · cases hs
      · exact (Except.ok.inj hs).symm
  have hresolution' : shape.resolution = o.defaultResolution := by
    rw [hresolution] at hr
    exact (Except.ok.inj hr).symm
  have haspect' : shape.aspectRatio = o.defaultAspect := by
    rw [haspect] at ha
    exact (Except.ok.inj ha).symm
  have hsound' : shape.audio = decide (o.audio = .always) := by
    unfold VideoOffer.audioFor at hsound
    rw [haudio] at hsound
    cases hoffer : o.audio with
    | never | always | optional =>
      rw [hoffer] at hsound
      exact (Except.ok.inj hsound).symm
  exact VideoShape.ext hseconds' hresolution' haspect' hsound' rfl

/-- The flat price of a model is no less than the quote of any request that makes no choice. -/
theorem quote_le_perClip {flat : Price} (hoffer : v.offer markup = some o) (hflat : v.perClip markup = some flat)
    (h : Undecided p) (hshape : o.shapeFor p = .ok shape) (hquote : o.quoteUsd shape = some quote) :
    quote ≤ flat.amount := by
  unfold ListedVideo.perClip at hflat
  simp only [Option.bind_eq_bind, Option.bind_eq_some_iff] at hflat
  obtain ⟨o', ho', text, htext, hprice⟩ := hflat
  cases hoffer.symm.trans ho'
  cases hprice
  have hwhole : ceilCents quote = quote := by
    obtain ⟨rate, -, rfl⟩ := Option.map_eq_some_iff.mp hquote
    exact ceilCents_ceilCents _
  have hle : quote ≤ max text ((o.quoteUsd { o.defaultShape with fromImage := true }).getD text) := by
    rw [shape_of_undecided h hshape] at hquote
    cases hfrom : shape.fromImage with
    | false =>
      rw [hfrom] at hquote
      have hsame : text = quote := Option.some_inj.mp (htext.symm.trans hquote)
      exact hsame ▸ le_max_left _ _
    | true =>
      rw [hfrom] at hquote
      rw [hquote]
      exact le_max_right _ _
  calc quote = ceilCents quote := hwhole.symm
    _ ≤ ceilCents _ := ceilCents_mono hle

/-- A model that is billed by the second, at two lengths, and takes no picture. -/
def veo : ListedVideo where
  id := "google/veo-3.1".toList
  supportedDurations := some [8, 6]
  pricingSkus := some [("duration_seconds".toList, "0.10".toList)]
  supportedFrameImages := some .null

def veoOffer : VideoOffer where
  durations := [6, 8]
  defaultSeconds := 6
  resolutions := []
  defaultResolution := none
  aspectRatios := []
  defaultAspect := none
  audio := .never
  firstFrame := false
  rates := veo.rates (23 / 20)

def veoModel : ModelDescriptor where
  id := "veo-3.1".toList
  kind := .video
  price := veo.perClip (23 / 20)
  video := some veoOffer

def veoNode : Worker.Config where
  payments := ⟨[], 137, [], [], [], false⟩
  payoutAddress := []
  models := [veoModel]

def veoClip : Worker.JobResult where
  kind := .video
  model := some "veo-3.1".toList
  measured := {}
  reported := none
  minBillMicros := some (billFloorMicros (3 / 5) (23 / 20))

end Bill

end Rootmode.OpenRouter
