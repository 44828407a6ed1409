import Mathlib.Data.List.MinMax
import Rootmode.Core.Job
import Rootmode.Lib.Rounding

namespace Rootmode

open Lib Lib.Text Lib.Rounding

section Cents

variable {x y : ℚ}

/-- Up to the cent, but for what is less than a millionth of a cent. -/
theorem ceilCents_eq (x : ℚ) :
    ceilCents x = (max 0 ⌊x * 100 + 999_999 / 1_000_000⌋ : ℤ) / 100 := by
  unfold ceilCents
  split
  · next hx =>
    have hlt : ⌊x * 100 + 999_999 / 1_000_000⌋ < 1 := Int.floor_lt.mpr (by push_cast; linarith)
    rw [max_eq_left (by omega), Int.cast_zero, zero_div]
  · next hx =>
    have hpos : 0 ≤ x * 100 := by linarith
    have hnonneg : 0 ≤ ⌊x * 100 + 999_999 / 1_000_000⌋ := Int.floor_nonneg.mpr (by linarith)
    have hsplit := Int.floor_add_fract (x * 100)
    have hfract := Int.fract_nonneg (x * 100)
    have hfract' := Int.fract_lt_one (x * 100)
    have hround : roundAway (x * 100) = round (x * 100) := by rw [roundAway, if_pos hpos, round_eq]
    dsimp only
    rw [max_eq_right hnonneg, hround]
    by_cases hhalf : Int.fract (x * 100) < 1 / 2
    · rw [round_eq_floor hhalf, abs_of_nonneg (by linarith)]
      split
      · next hnear =>
        -- so little above a cent that it is dropped
        congr 2
        refine (Int.floor_eq_iff.mpr ⟨?_, ?_⟩).symm <;> linarith
      · next hfar =>
        have hceil : ⌈x * 100⌉ = ⌊x * 100⌋ + 1 := Int.ceil_eq_iff.mpr (by push_cast; constructor <;> linarith)
        rw [hceil]
        congr 2
        refine (Int.floor_eq_iff.mpr ?_).symm
        push_cast
        constructor <;> linarith
    · have hceil : ⌈x * 100⌉ = ⌊x * 100⌋ + 1 := Int.ceil_eq_iff.mpr (by push_cast; constructor <;> linarith)
      have hfloor : ⌊x * 100 + 999_999 / 1_000_000⌋ = ⌊x * 100⌋ + 1 := by
        refine Int.floor_eq_iff.mpr ?_
        push_cast
        constructor <;> linarith
      rw [round_eq_floor_add_one (not_lt.mp hhalf), hceil, hfloor, ite_self]

theorem ceilCents_mono (h : x ≤ y) : ceilCents x ≤ ceilCents y := by
  rw [ceilCents_eq, ceilCents_eq]
  have hfloor : ⌊x * 100 + 999_999 / 1_000_000⌋ ≤ ⌊y * 100 + 999_999 / 1_000_000⌋ :=
    Int.floor_le_floor (by linarith)
  have hmax : (max 0 ⌊x * 100 + 999_999 / 1_000_000⌋ : ℤ) ≤ max 0 ⌊y * 100 + 999_999 / 1_000_000⌋ :=
    max_le_max le_rfl hfloor
  have hcast : ((max 0 ⌊x * 100 + 999_999 / 1_000_000⌋ : ℤ) : ℚ) ≤
      (max 0 ⌊y * 100 + 999_999 / 1_000_000⌋ : ℤ) := by exact_mod_cast hmax
  linarith

/-- Above a whole number of cents by less than what rounding drops. -/
def Dropped (x : ℚ) : Prop := 0 < Int.fract (x * 100) ∧ Int.fract (x * 100) < 1 / 1_000_000

instance : Decidable (Dropped x) := inferInstanceAs (Decidable (_ ∧ _))

/-- Unless something is dropped, an amount is rounded up to whole cents. -/
theorem ceilCents_of_not_dropped (hx : 0 ≤ x) (h : ¬ Dropped x) : ceilCents x = ⌈x * 100⌉ / 100 := by
  have hsplit := Int.floor_add_fract (x * 100)
  have hfract := Int.fract_nonneg (x * 100)
  have hfract' := Int.fract_lt_one (x * 100)
  have hceil : ⌊x * 100 + 999_999 / 1_000_000⌋ = ⌈x * 100⌉ := by
    by_cases hzero : Int.fract (x * 100) = 0
    · have hle : ⌈x * 100⌉ = ⌊x * 100⌋ := by
        refine Int.ceil_eq_iff.mpr ?_
        constructor <;> linarith
      rw [hle]
      refine Int.floor_eq_iff.mpr ?_
      constructor <;> linarith
    · have hpos : 0 < Int.fract (x * 100) := lt_of_le_of_ne hfract (Ne.symm hzero)
      have hfar : 1 / 1_000_000 ≤ Int.fract (x * 100) := not_lt.mp fun hlt => h ⟨hpos, hlt⟩
      have hle : ⌈x * 100⌉ = ⌊x * 100⌋ + 1 := by
        refine Int.ceil_eq_iff.mpr ?_
        push_cast
        constructor <;> linarith
      rw [hle]
      refine Int.floor_eq_iff.mpr ?_
      push_cast
      constructor <;> linarith
  have hnonneg : 0 ≤ ⌈x * 100⌉ := Int.ceil_nonneg (by linarith)
  rw [ceilCents_eq, hceil, max_eq_right hnonneg]

/-- An amount is not rounded down exactly where nothing is dropped. -/
theorem le_ceilCents_iff (hx : 0 ≤ x) : x ≤ ceilCents x ↔ ¬ Dropped x := by
  constructor
  · rintro hle ⟨hpos, hlt⟩
    have hsplit := Int.floor_add_fract (x * 100)
    have hfloor : ⌊x * 100 + 999_999 / 1_000_000⌋ = ⌊x * 100⌋ := by
      refine Int.floor_eq_iff.mpr ?_
      constructor <;> linarith
    have hnonneg : 0 ≤ ⌊x * 100⌋ := Int.floor_nonneg.mpr (by linarith)
    rw [ceilCents_eq, hfloor, max_eq_right hnonneg] at hle
    linarith
  · intro h
    rw [ceilCents_of_not_dropped hx h]
    have hceil := Int.le_ceil (x * 100)
    linarith

end Cents

/-- What a clip costs at a rate. -/
def VideoRate.cost (r : VideoRate) (seconds : ℕ) : ℚ := max (r.usdPerSecond * seconds) r.minimumUsd

namespace VideoOffer

variable {o : VideoOffer} {shape : VideoShape} {rates : List VideoRate} {q : ℚ}

/-- The rates for a shape: those that know of its first frame, if there are any. -/
def preferred (o : VideoOffer) (shape : VideoShape) : List VideoRate :=
  let fitting := o.rates.filter (fits shape)
  let exact := fitting.filter fun r => r.fromImage == shape.fromImage
  if exact = [] then fitting else exact

theorem dearest_eq_argmax (rates : List VideoRate) : dearest rates = rates.argmax VideoRate.usdPerSecond := by
  unfold dearest List.argmax
  congr 1
  funext best r
  cases best with
  | none => rfl
  | some m =>
    by_cases hle : r.usdPerSecond ≤ m.usdPerSecond
    · simp [List.argAux, hle, not_lt.mpr hle]
    · simp [List.argAux, hle, not_le.mp hle]

/-- The rate quoted is the first of those of the preferred class that are dearest by the second. -/
theorem rateFor_eq (o : VideoOffer) (shape : VideoShape) :
    o.rateFor shape = (o.preferred shape).argmax VideoRate.usdPerSecond := by
  unfold rateFor preferred
  dsimp only
  rw [dearest_eq_argmax, dearest_eq_argmax]
  split
  · next hnone => rw [hnone, List.argmax_nil, Option.none_or]
  · next hsome =>
    have hne : List.argmax VideoRate.usdPerSecond _ ≠ none := List.argmax_eq_none.not.mpr hsome
    obtain ⟨m, hm⟩ := Option.ne_none_iff_exists'.mp hne
    rw [hm, Option.some_or]

theorem preferred_subset {r : VideoRate} (h : r ∈ o.preferred shape) : r ∈ o.rates := by
  unfold preferred at h
  dsimp only at h
  split at h
  · exact List.mem_of_mem_filter h
  · exact List.mem_of_mem_filter (List.mem_of_mem_filter h)

theorem quoteUsd_eq_some :
    o.quoteUsd shape = some q ↔
      ∃ d ∈ (o.preferred shape).argmax VideoRate.usdPerSecond, ceilCents (d.cost shape.seconds) = q := by
  rw [quoteUsd, rateFor_eq, Option.map_eq_some_iff]
  rfl

/-- What an offer asks is no less than nothing. -/
def Asks (o : VideoOffer) : Prop := ∀ r ∈ o.rates, 0 ≤ r.usdPerSecond ∧ 0 ≤ r.minimumUsd

theorem Asks.cost_nonneg (h : o.Asks) {r : VideoRate} (hr : r ∈ o.rates) (seconds : ℕ) :
    0 ≤ r.cost seconds := le_max_of_le_right (h r hr).2

theorem Asks.cost_mono (h : o.Asks) {r : VideoRate} (hr : r ∈ o.rates) {n n' : ℕ} (hle : n ≤ n') :
    r.cost n ≤ r.cost n' := by
  have hcast : (n : ℚ) ≤ n' := by exact_mod_cast hle
  exact max_le_max (mul_le_mul_of_nonneg_left hcast (h r hr).1) le_rfl

/-- A quote is what no rate of the class is above, and does not go down for a longer clip. -/
structure Covers (o : VideoOffer) (shape : VideoShape) : Prop where
  above : ∀ q ∈ o.quoteUsd shape, ∀ r ∈ o.preferred shape, r.cost shape.seconds ≤ q
  rises : ∀ n n', n ≤ n' → ∀ q ∈ o.quoteUsd { shape with seconds := n },
    ∃ q' ∈ o.quoteUsd { shape with seconds := n' }, q ≤ q'

/-- The rate dearest by the second costs whole cents, or more than rounding drops, and up to the cent
no rate of the class has a minimum above it. -/
def Outbids (o : VideoOffer) (shape : VideoShape) : Prop :=
  ∀ d ∈ (o.preferred shape).argmax VideoRate.usdPerSecond, ¬ Dropped (d.cost shape.seconds) ∧
    ∀ r ∈ o.preferred shape, r.minimumUsd * 100 ≤ ⌈d.cost shape.seconds * 100⌉

instance : Decidable (Outbids o shape) :=
  decidable_of_iff
    (((o.preferred shape).argmax VideoRate.usdPerSecond).all fun d => !decide (Dropped (d.cost shape.seconds)) &&
      (o.preferred shape).all fun r => r.minimumUsd * 100 ≤ ⌈d.cost shape.seconds * 100⌉) (by
    cases h : (o.preferred shape).argmax VideoRate.usdPerSecond <;> simp [Outbids, h])

/-- More seconds never lower a quote. -/
theorem quoteUsd_rises (h : o.Asks) {n n' : ℕ} (hle : n ≤ n')
    (hq : o.quoteUsd { shape with seconds := n } = some q) :
    ∃ q' ∈ o.quoteUsd { shape with seconds := n' }, q ≤ q' := by
  obtain ⟨d, hd, rfl⟩ := quoteUsd_eq_some.mp hq
  have hmem := preferred_subset (List.argmax_mem hd)
  exact ⟨_, quoteUsd_eq_some.mpr ⟨d, hd, rfl⟩, ceilCents_mono (h.cost_mono hmem hle)⟩

/-- A second of it is a dollar, or half a dollar with a hundred to begin with. -/
def twoRates : VideoOffer :=
  { durations := [], defaultSeconds := 1, resolutions := [], defaultResolution := none
    aspectRatios := [], defaultAspect := none, audio := .never, firstFrame := false
    rates := [ { resolution := none, audio := false, fromImage := false, usdPerSecond := 1, minimumUsd := 0 },
      { resolution := none, audio := false, fromImage := false, usdPerSecond := 1 / 2, minimumUsd := 100 } ] }

def oneSecond : VideoShape :=
  { seconds := 1, resolution := none, aspectRatio := none, audio := false, fromImage := false }

theorem twoRates_asks : twoRates.Asks := by
  unfold Asks twoRates
  simp

end VideoOffer

end Rootmode
