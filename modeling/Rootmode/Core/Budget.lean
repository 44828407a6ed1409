import Rootmode.Core.Price
import Mathlib.Tactic.GCongr

namespace Rootmode.Price

open Lib.Checked

section Rounding

variable {x y : ℚ}

/-- An amount in micros, rounded and cast. -/
def charged (x : ℚ) : ℕ := castWord 64 (max (roundAway x) 0)

theorem roundAway_of_nonneg (hx : 0 ≤ x) : roundAway x = ⌊x + 1 / 2⌋ := if_pos hx

theorem charged_of_nonneg (hx : 0 ≤ x) : charged x = min ⌊x + 1 / 2⌋.toNat (2 ^ 64 - 1) := by
  have hfloor : (0 : ℤ) ≤ ⌊x + 1 / 2⌋ := Int.floor_nonneg.mpr (by linarith)
  rw [charged, roundAway_of_nonneg hx, max_eq_left (by exact_mod_cast hfloor), castWord, Int.floor_intCast]

theorem charged_le : charged x ≤ 2 ^ 64 - 1 := min_le_right _ _

theorem charged_mono (hx : 0 ≤ x) (h : x ≤ y) : charged x ≤ charged y := by
  rw [charged_of_nonneg hx, charged_of_nonneg (hx.trans h)]
  have hfloor : ⌊x + 1 / 2⌋ ≤ ⌊y + 1 / 2⌋ := Int.floor_mono (by linarith)
  omega

/-- A whole number of micros more is charged as such. -/
theorem charged_add_le (hx : 0 ≤ x) {n m : ℕ} (hy : y ≤ x + n) (hy' : 0 ≤ y) (h : charged x + n ≤ m) :
    charged y ≤ m := by
  have hshift : ⌊y + 1 / 2⌋ ≤ ⌊x + 1 / 2⌋ + n := by
    have hle : y + 1 / 2 ≤ x + 1 / 2 + n := by linarith
    have hfloor := Int.floor_mono hle
    rwa [Int.floor_add_natCast] at hfloor
  have hfloor : (0 : ℤ) ≤ ⌊x + 1 / 2⌋ := Int.floor_nonneg.mpr (by linarith)
  rw [charged_of_nonneg hx] at h
  rw [charged_of_nonneg hy']
  omega

end Rounding

section Cost

variable (p : Price)

/-- What a token costs that was not read from the cache. -/
def fresh : ℚ := max p.llmRates.input p.llmRates.cacheWrite

/-- What a chat costs, before it is rounded. -/
def cost (prompt completion cached : ℕ) : ℚ :=
  (prompt - min cached prompt : ℕ) * p.fresh + (min cached prompt : ℕ) * p.llmRates.cache +
    completion * p.llmRates.output

theorem chargeLlmMicros_eq (prompt completion cached : ℕ) :
    p.chargeLlmMicros prompt completion cached = charged (p.cost prompt completion cached) := rfl

variable {p}
variable {prompt prompt' completion completion' cached cached' micros : ℕ}

theorem fresh_nonneg : 0 ≤ p.fresh := le_max_of_le_left (ceilCents_nonneg _)

theorem cache_nonneg : 0 ≤ p.llmRates.cache := ceilCents_nonneg _

theorem output_rate_nonneg : 0 ≤ p.llmRates.output := ceilCents_nonneg _

theorem cost_nonneg : 0 ≤ p.cost prompt completion cached := by
  have hfresh := p.fresh_nonneg
  have hcache := p.cache_nonneg
  have houtput := p.output_rate_nonneg
  unfold cost
  positivity

/-- More of each is never cheaper. -/
theorem cost_le_of_parts {u u' k k' c c' : ℕ} (hu : u ≤ u') (hk : k ≤ k') (hc : c ≤ c') :
    (u * p.fresh + k * p.llmRates.cache + c * p.llmRates.output : ℚ) ≤
      u' * p.fresh + k' * p.llmRates.cache + c' * p.llmRates.output := by
  have hfresh := p.fresh_nonneg
  have hcache := p.cache_nonneg
  have houtput := p.output_rate_nonneg
  gcongr

theorem cost_mono (hprompt : prompt ≤ prompt') (hcompletion : completion ≤ completion') :
    p.cost prompt completion cached ≤ p.cost prompt' completion' cached :=
  cost_le_of_parts (by omega) (by omega) hcompletion

/-- A token read from the cache in place of a fresh one. -/
theorem cost_anti (hrate : p.llmRates.cache ≤ p.fresh) (h : cached ≤ cached') :
    p.cost prompt completion cached' ≤ p.cost prompt completion cached := by
  have hsplit : ((prompt - min cached prompt : ℕ) : ℚ) =
      (prompt - min cached' prompt : ℕ) + (min cached' prompt - min cached prompt : ℕ) := by
    exact_mod_cast (by omega : prompt - min cached prompt =
      (prompt - min cached' prompt) + (min cached' prompt - min cached prompt))
  have hmore : ((min cached' prompt : ℕ) : ℚ) =
      (min cached prompt : ℕ) + (min cached' prompt - min cached prompt : ℕ) := by
    exact_mod_cast (by omega : min cached' prompt =
      min cached prompt + (min cached' prompt - min cached prompt))
  have hswap : ((min cached' prompt - min cached prompt : ℕ) : ℚ) * p.llmRates.cache ≤
      (min cached' prompt - min cached prompt : ℕ) * p.fresh := by
    gcongr
  unfold cost
  rw [hsplit, hmore]
  linarith

theorem cost_le_fresh (hrate : p.llmRates.cache ≤ p.fresh) :
    p.cost prompt completion cached ≤ p.cost prompt 0 0 + completion * p.llmRates.output := by
  calc p.cost prompt completion cached ≤ p.cost prompt completion 0 := cost_anti hrate (Nat.zero_le _)
    _ = p.cost prompt 0 0 + completion * p.llmRates.output := by simp [cost]

/-- The tokens a bond covers beyond the prompt cost no more than what is left of it. -/
theorem completion_cost_le (h : prompt + completion ≤ p.authorizedTokens micros prompt) :
    completion * p.llmRates.output ≤ (micros - p.chargeLlmMicros prompt 0 0 : ℕ) := by
  unfold authorizedTokens at h
  split at h
  · next hfree =>
    have hzero : p.llmRates.output = 0 := le_antisymm hfree output_rate_nonneg
    rw [hzero, mul_zero]
    exact Nat.cast_nonneg _
  · next hpaid =>
    have hrate : 0 < p.llmRates.output := not_le.mp hpaid
    set left : ℚ := ((micros - p.chargeLlmMicros prompt 0 0 : ℕ) : ℚ) with hleft
    have hcount : completion ≤ castWord 64 (left / p.llmRates.output) := by
      have hsum : prompt + completion ≤ prompt + castWord 64 (left / p.llmRates.output) :=
        h.trans (min_le_left _ _)
      omega
    have hcast : (castWord 64 (left / p.llmRates.output) : ℚ) ≤ left / p.llmRates.output :=
      le_of_lt_castWord (div_nonneg (Nat.cast_nonneg _) hrate.le)
    rw [← le_div_iff₀ hrate]
    exact (Nat.cast_le.mpr hcount).trans hcast

/-- What a bond is said to cover costs no more than it, and a chat costs more the longer it is and less the
more of it was cached. -/
theorem budget_sound (p : Price) (hrate : p.llmRates.cache ≤ max p.llmRates.input p.llmRates.cacheWrite) :
    (∀ micros prompt completion cached, p.chargeLlmMicros prompt 0 0 ≤ micros →
      prompt + completion ≤ p.authorizedTokens micros prompt →
        p.chargeLlmMicros prompt completion cached ≤ micros) ∧
    (∀ prompt prompt' completion cached, prompt ≤ prompt' →
      p.chargeLlmMicros prompt completion cached ≤ p.chargeLlmMicros prompt' completion cached) ∧
    (∀ prompt completion completion' cached, completion ≤ completion' →
      p.chargeLlmMicros prompt completion cached ≤ p.chargeLlmMicros prompt completion' cached) ∧
    (∀ prompt completion cached cached', cached ≤ cached' →
      p.chargeLlmMicros prompt completion cached' ≤ p.chargeLlmMicros prompt completion cached) := by
  refine ⟨fun micros prompt completion cached hprompt hcovered => ?_, fun prompt prompt' completion cached h => ?_,
    fun prompt completion completion' cached h => ?_, fun prompt completion cached cached' h => ?_⟩
  · have hrest := completion_cost_le hcovered
    have hcost : p.cost prompt completion cached ≤
        p.cost prompt 0 0 + (micros - p.chargeLlmMicros prompt 0 0 : ℕ) :=
      (cost_le_fresh hrate).trans (by linarith)
    exact charged_add_le cost_nonneg hcost cost_nonneg (Nat.add_sub_of_le hprompt).le
  · exact charged_mono cost_nonneg (cost_mono h le_rfl)
  · exact charged_mono cost_nonneg (cost_mono le_rfl h)
  · exact charged_mono cost_nonneg (cost_anti hrate h)

/-- A price with a rate for each kind of token. -/
def split : Price := { amount := 2, input := some 1, output := some 2, cache := some (1 / 2) }

theorem budget_sound_split : split.chargeLlmMicros 1000 500 200 ≤ 2000 :=
  (budget_sound split (by decide +kernel)).1 2000 1000 500 200 (by decide +kernel) (by decide +kernel)

end Cost

end Rootmode.Price
