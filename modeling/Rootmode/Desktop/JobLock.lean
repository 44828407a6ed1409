import Rootmode.Lib.Rounding
import Rootmode.Worker.LocalNode

namespace Rootmode.Desktop

open Int (fract)
open Lib Lib.Checked Lib.Rounding Payments Worker

/-- The least answer a job is sent with room for. -/
def minAnswerTokens : ℕ := 8192

def worstCaseMicros (price : ℚ) : JobKind → Micros
  | .llm => castWord 64 (max (roundAway (minAnswerTokens * price)) 1)
  | .image | .video => castWord 64 (max (roundAway (price * 1_000_000)) 1)

def lockMicros (price : Price) (kind : JobKind) : JobPayload → Micros
  | .llm params => price.chargeLlmMicros params.promptTokens minAnswerTokens 0
  | _ => worstCaseMicros price.amount kind

/-- What this job can cost at most, which is what its bond has to cover. -/
def jobLockMicros (price : Price) (kind : JobKind) : JobPayload → Micros
  | .llm params => max (price.chargeLlmMicros params.promptTokens params.maxTokens 0) 1
  | payload => max (lockMicros price kind payload) 1

section Costs

variable (price : Price)

/-- What a prompt costs, nothing of it cached. -/
def promptCost (prompt : ℕ) : ℚ := prompt * max price.llmRates.input price.llmRates.cacheWrite

def answerCost (maxTokens : ℕ) : ℚ := maxTokens * price.llmRates.output

variable {price}

theorem output_nonneg : 0 ≤ price.llmRates.output := ceilCents_nonneg _

theorem promptCost_nonneg (prompt : ℕ) : 0 ≤ promptCost price prompt := by
  have hinput : 0 ≤ price.llmRates.input := ceilCents_nonneg _
  exact mul_nonneg (Nat.cast_nonneg prompt) (le_max_of_le_left hinput)

theorem answerCost_nonneg (maxTokens : ℕ) : 0 ≤ answerCost price maxTokens :=
  mul_nonneg (Nat.cast_nonneg maxTokens) output_nonneg

theorem roundAway_eq_round {x : ℚ} (h : 0 ≤ x) : roundAway x = round x := by
  rw [roundAway, if_pos h, round_eq]

theorem castWord_round {x : ℚ} (h : 0 ≤ x) :
    castWord 64 (max (roundAway x : ℚ) 0) = min (round x).toNat (2 ^ 64 - 1) := by
  have hround : 0 ≤ round x := by
    rw [round_eq]
    exact Int.floor_nonneg.mpr (by linarith)
  rw [roundAway_eq_round h, max_eq_left (by exact_mod_cast hround), castWord, Int.floor_intCast]

theorem charge_eq (prompt maxTokens : ℕ) :
    price.chargeLlmMicros prompt maxTokens 0 =
      min (round (promptCost price prompt + answerCost price maxTokens)).toNat (2 ^ 64 - 1) := by
  rw [← castWord_round (add_nonneg (promptCost_nonneg prompt) (answerCost_nonneg maxTokens))]
  simp [Price.chargeLlmMicros, promptCost, answerCost]

theorem promptMicros_eq (prompt : ℕ) :
    promptMicros price prompt = min ⌈promptCost price prompt⌉.toNat (2 ^ 64 - 1) := by
  rw [promptMicros, castWord, Int.floor_intCast, promptCost]

end Costs

section Sizing

variable {price : Price} {prompt maxTokens bond : ℕ}

theorem promptMicros_lt (hbond : bond < 2 ^ 64) :
    promptMicros price prompt < bond ↔ ⌈promptCost price prompt⌉ < bond := by
  have hnonneg : 0 ≤ ⌈promptCost price prompt⌉ := Int.ceil_nonneg (promptCost_nonneg prompt)
  have hsaturates {cost : ℤ} (hcost : 0 ≤ cost) : min cost.toNat (2 ^ 64 - 1) < bond ↔ cost < bond := by
    omega
  rw [promptMicros_eq]
  exact hsaturates hnonneg

theorem castWord_floor (w : ℕ) (x : ℚ) : castWord w (⌊x⌋ : ℚ) = castWord w x := by
  rw [castWord, Int.floor_intCast, castWord]

/-- So many tokens of answer are paid for by what is left of a bond. -/
theorem le_cast_floor_iff {left : ℕ} (hoff : 0 < price.llmRates.output) (hmax : maxTokens < 2 ^ 64) :
    maxTokens ≤ castWord 64 (left / price.llmRates.output) ↔ answerCost price maxTokens ≤ left := by
  have hfloor : (maxTokens : ℤ) ≤ ⌊(left : ℚ) / price.llmRates.output⌋ ↔
      answerCost price maxTokens ≤ left := by
    rw [Int.le_floor, le_div_iff₀ hoff, answerCost]
    norm_cast
  have hnonneg : 0 ≤ ⌊(left : ℚ) / price.llmRates.output⌋ := by
    apply Int.floor_nonneg.mpr
    positivity
  rw [← hfloor, castWord]
  omega

/-- The chunk leaves the answer as long as it was asked to be. -/
theorem le_ceilingFor_iff (hmax : maxTokens < 2 ^ 32) (hbond : bond < 2 ^ 64)
    (hprompt : ⌈promptCost price prompt⌉ < bond) :
    maxTokens ≤ ceilingFor price prompt bond ↔
      (2 ≤ maxTokens → ⌈promptCost price prompt⌉ + answerCost price maxTokens ≤ bond) := by
  have hcost : ⌈promptCost price prompt⌉.toNat ≤ bond := by omega
  have hceil : 0 ≤ ⌈promptCost price prompt⌉ := Int.ceil_nonneg (promptCost_nonneg prompt)
  have hleft : bond - promptMicros price prompt = bond - ⌈promptCost price prompt⌉.toNat := by
    have hsmall {cost : ℕ} (h : cost < bond) : bond - min cost (2 ^ 64 - 1) = bond - cost := by omega
    rw [promptMicros_eq]
    exact hsmall (by omega)
  have hroom : maxTokens ≤ roomFor price (bond - promptMicros price prompt) ↔
      ⌈promptCost price prompt⌉ + answerCost price maxTokens ≤ bond := by
    rw [hleft, roomFor]
    split
    · next hoff =>
      rw [castWord_floor, le_cast_floor_iff hoff (by omega), Nat.cast_sub hcost, le_sub_iff_add_le']
      rw [show ((⌈promptCost price prompt⌉.toNat : ℕ) : ℚ) = (⌈promptCost price prompt⌉ : ℚ) by
        exact_mod_cast Int.toNat_of_nonneg hceil]
    · next hfree =>
      have hzero : price.llmRates.output = 0 := le_antisymm (not_lt.mp hfree) output_nonneg
      simp only [answerCost, hzero, mul_zero, add_zero]
      refine ⟨fun _ => by exact_mod_cast hprompt.le, fun _ => by omega⟩
  rw [← hroom, ceilingFor]
  omega

theorem le_authorizedTokens_iff (hmax : maxTokens < 2 ^ 32) (hbond : bond < 2 ^ 64)
    (hprompt : ⌈promptCost price prompt⌉ < bond) :
    prompt + maxTokens ≤ price.authorizedTokens bond prompt ↔
      prompt + maxTokens < 2 ^ 64 ∧
        round (promptCost price prompt) + answerCost price maxTokens ≤ bond := by
  have hround : 0 ≤ round (promptCost price prompt) := by
    rw [round_eq]
    apply Int.floor_nonneg.mpr
    have hnonneg : 0 ≤ promptCost price prompt := promptCost_nonneg prompt
    positivity
  have hceil := round_le_ceil (promptCost price prompt)
  have hcost : (round (promptCost price prompt)).toNat ≤ bond := by omega
  have hleft : bond - price.chargeLlmMicros prompt 0 0 =
      bond - (round (promptCost price prompt)).toNat := by
    have hsmall {cost : ℕ} (h : cost < bond) : bond - min cost (2 ^ 64 - 1) = bond - cost := by omega
    rw [charge_eq, answerCost, Nat.cast_zero, zero_mul, add_zero]
    exact hsmall (by omega)
  rw [Price.authorizedTokens]
  split
  · next hfree =>
    have hzero : price.llmRates.output = 0 := le_antisymm hfree output_nonneg
    have hle : (round (promptCost price prompt) : ℚ) ≤ bond := by exact_mod_cast hceil.trans hprompt.le
    simp only [answerCost, hzero, mul_zero, add_zero, hle, and_true]
    omega
  · next hoff =>
    have hpaid : maxTokens ≤ castWord 64
          ((bond - (round (promptCost price prompt)).toNat : ℕ) / price.llmRates.output) ↔
        round (promptCost price prompt) + answerCost price maxTokens ≤ bond := by
      rw [le_cast_floor_iff (not_le.mp hoff) (by omega), Nat.cast_sub hcost, le_sub_iff_add_le']
      rw [show ((round (promptCost price prompt)).toNat : ℚ) = (round (promptCost price prompt) : ℚ) by
        exact_mod_cast Int.toNat_of_nonneg hround]
    dsimp only
    rw [hleft, ← hpaid, satAdd]
    omega

end Sizing

section Rounded

variable {x y : ℚ} {maxTokens : ℕ}

/-- How the costs of prompt and answer must lie for the nearest micro to their sum to pay for both:
next to nothing at all, or rounded up by as much as the prompt alone is.  An answer of one token is
let through when only its prompt is paid for. -/
def Sized (x y : ℚ) (maxTokens : ℕ) : Prop :=
  x = 0 ∧ y ≤ 1 ∨ 0 < y ∧ (Keeps x y ∨
    maxTokens = 1 ∧ fract x < 1 / 2 ∧ 3 / 2 ≤ fract x + y ∧ KeepsFloor x y)

instance : Decidable (Keeps x y) := inferInstanceAs (Decidable (_ ∨ _))
instance : Decidable (KeepsFloor x y) := inferInstanceAs (Decidable (_ ∨ _))
instance : Decidable (Sized x y maxTokens) := inferInstanceAs (Decidable (_ ∨ _))

/-- A bond of `b` micros pays for prompt and answer as the worker counts them. -/
structure Pays (b : ℤ) (x y : ℚ) (maxTokens : ℕ) : Prop where
  prompt : ⌈x⌉ < b
  answer : 2 ≤ maxTokens → ⌈x⌉ + y ≤ b
  meter : round x + y ≤ b

theorem ceil_add_le_bond (hx : 0 ≤ x) (hy : 0 < y) :
    ⌈x⌉ + y ≤ (max (round (x + y)) 1 : ℤ) ↔ x = 0 ∧ y ≤ 1 ∨ Keeps x y := by
  rw [Int.cast_max, le_max_iff, ceil_add_le_round, or_comm]
  refine or_congr_left ?_
  constructor
  · intro h
    have hlt : (⌈x⌉ : ℚ) < (1 : ℤ) := by
      push_cast at h ⊢
      linarith
    have hceil : ⌈x⌉ ≤ 0 := Int.lt_add_one_iff.mp (by exact_mod_cast hlt)
    have hzero : x = 0 := le_antisymm (by exact_mod_cast Int.ceil_le.mp hceil) hx
    rw [hzero, Int.ceil_zero] at h
    refine ⟨hzero, ?_⟩
    push_cast at h
    linarith
  · rintro ⟨rfl, hle⟩
    simpa using hle

/-- What pays for everything pays for it as metered. -/
theorem Pays.of_answer {b : ℤ} (hy : 0 < y) (h : ⌈x⌉ + y ≤ b) : Pays b x y maxTokens := by
  have hround : (round x : ℚ) ≤ ⌈x⌉ := by exact_mod_cast round_le_ceil x
  refine ⟨?_, fun _ => h, by linarith⟩
  have hlt : (⌈x⌉ : ℚ) < b := by linarith
  exact_mod_cast hlt

/-- A bond that pays for a single token but not for the prompt rounded up and the token on top. -/
theorem pays_one (hx : 0 ≤ x) (hy : 0 < y) : Pays (max (round (x + y)) 1) x y 1 ↔
    ⌈x⌉ + y ≤ (max (round (x + y)) 1 : ℤ) ∨
      fract x < 1 / 2 ∧ 3 / 2 ≤ fract x + y ∧ KeepsFloor x y := by
  have hfract := Int.floor_add_fract x
  constructor
  · rintro ⟨hprompt, -, hmeter⟩
    by_cases hhalf : fract x < 1 / 2
    · by_cases hwhole : fract x = 0
      · left
        have hceil : (⌈x⌉ : ℚ) = round x := by
          obtain ⟨n, hn⟩ := Int.fract_eq_zero_iff.mp hwhole
          rw [← hn, Int.ceil_intCast, round_intCast]
        rw [hceil]
        exact hmeter
      · right
        have hfloor : ⌈x⌉ = ⌊x⌋ + 1 := by
          rw [Int.ceil_eq_iff]
          have hpos := lt_of_le_of_ne (Int.fract_nonneg x) (Ne.symm hwhole)
          push_cast
          constructor <;> linarith
        have hnonneg : 0 ≤ ⌊x⌋ := Int.floor_nonneg.mpr hx
        have htwo : ⌊x⌋ + 2 ≤ round (x + y) := by
          rw [hfloor] at hprompt
          omega
        have hmax : max (round (x + y)) 1 = round (x + y) := max_eq_left (by omega)
        rw [hmax, round_eq_floor hhalf, floor_add_le_round] at hmeter
        refine ⟨hhalf, ?_, hmeter⟩
        rw [round_eq, Int.le_floor] at htwo
        push_cast at htwo
        linarith
    · left
      have hceil : (⌈x⌉ : ℚ) ≤ round x := by
        rw [round_eq_floor_add_one (not_lt.mp hhalf)]
        exact_mod_cast Int.ceil_le_floor_add_one x
      linarith
  · rintro (hall | ⟨hhalf, hlong, hkeeps⟩)
    · exact .of_answer hy hall
    · have htwo : ⌊x⌋ + 2 ≤ round (x + y) := by
        rw [round_eq, Int.le_floor]
        push_cast
        linarith
      have hceil := Int.ceil_le_floor_add_one x
      have hnonneg : 0 ≤ ⌊x⌋ := Int.floor_nonneg.mpr hx
      have hmax : max (round (x + y)) 1 = round (x + y) := max_eq_left (by omega)
      rw [hmax]
      refine ⟨by omega, fun h => absurd h (by decide), ?_⟩
      rw [round_eq_floor hhalf]
      exact floor_add_le_round.mpr hkeeps

/-- The bond the client rounds to the nearest micro pays for the job exactly where the costs lie
right. -/
theorem pays_iff_sized (hx : 0 ≤ x) (hy : 0 ≤ y) (hnone : maxTokens = 0 → y = 0) :
    Pays (max (round (x + y)) 1) x y maxTokens ↔ Sized x y maxTokens := by
  rcases hy.eq_or_lt with hzero | hpos
  · subst hzero
    constructor
    · rintro ⟨hprompt, -, -⟩
      rw [add_zero] at hprompt
      have hround := round_le_ceil x
      have hceil : ⌈x⌉ ≤ 0 := by omega
      exact .inl ⟨le_antisymm (by exact_mod_cast Int.ceil_le.mp hceil) hx, zero_le_one⟩
    · rintro (⟨rfl, -⟩ | ⟨hpos, -⟩)
      · constructor <;> simp
      · exact absurd hpos (lt_irrefl 0)
  · have hsome : maxTokens ≠ 0 := fun h => hpos.ne' (hnone h)
    by_cases hone : maxTokens = 1
    · subst hone
      rw [pays_one hx hpos, ceil_add_le_bond hx hpos, Sized]
      tauto
    · have hmany : 2 ≤ maxTokens := by omega
      have hpays : Pays (max (round (x + y)) 1) x y maxTokens ↔
          ⌈x⌉ + y ≤ (max (round (x + y)) 1 : ℤ) := ⟨fun h => h.answer hmany, .of_answer hpos⟩
      rw [hpays, ceil_add_le_bond hx hpos, Sized]
      tauto

/-- A bond that would not fit its word pays for nothing. -/
theorem pays_capped {x y : ℚ} {bond : ℕ}
    (hbond : bond = max (min (round (x + y)).toNat (2 ^ 64 - 1)) 1) :
    Pays bond x y maxTokens ↔ round (x + y) < 2 ^ 64 ∧ Pays (max (round (x + y)) 1) x y maxTokens := by
  by_cases hfits : round (x + y) < 2 ^ 64
  · have hsame : (bond : ℤ) = max (round (x + y)) 1 := by omega
    rw [hsame, and_iff_right hfits]
  · have hfull : (bond : ℤ) = 2 ^ 64 - 1 := by omega
    refine iff_of_false ?_ (fun h => hfits h.1)
    intro h
    have hmeter := h.meter
    have hsum : (2 ^ 64 : ℤ) ≤ round (x + y) := not_lt.mp hfits
    rw [round_eq, Int.le_floor] at hsum
    have hhalf := sub_round_lt_half x
    rw [hfull] at hmeter
    push_cast at hmeter hsum
    linarith

end Rounded

section Agreement

variable (cfg : Config) (params : LlmParams)

/-- The price both sides go by: what the worker lists for the job. -/
abbrev agreedPrice : Price := advertisedPrice cfg (.llm params)

/-- The worker takes the client's bond for the job, leaves the answer its length, and has it metered
to the end. -/
def BondSuffices (already : Micros) : Prop :=
  let bond := jobLockMicros (agreedPrice cfg params) .llm (.llm params)
  clampToChunk cfg (.llm params) bond already = .ok (.llm params) ∧
    params.promptTokens + params.maxTokens ≤
      (agreedPrice cfg params).authorizedTokens bond params.promptTokens

variable {cfg} {params} {already : Micros}

theorem clamp_leaves_iff {bond : Micros} :
    clampToChunk cfg (.llm params) bond already = .ok (.llm params) ↔
      promptMicros (agreedPrice cfg params) params.promptTokens < bond ∧
        params.maxTokens ≤ ceilingFor (agreedPrice cfg params) params.promptTokens bond := by
  rw [clampToChunk_llm]
  refine and_congr_right fun _ => ?_
  constructor
  · intro h
    have hmax : params.maxTokens = min params.maxTokens _ :=
      congrArg LlmParams.maxTokens (JobPayload.llm.inj h)
    exact min_eq_left_iff.mp hmax.symm
  · intro h
    rw [min_eq_left h]

theorem suffices_iff_pays (hmax : params.maxTokens < 2 ^ 32) :
    BondSuffices cfg params already ↔ params.promptTokens + params.maxTokens < 2 ^ 64 ∧
      Pays (jobLockMicros (agreedPrice cfg params) .llm (.llm params) : ℕ)
        (promptCost (agreedPrice cfg params) params.promptTokens)
        (answerCost (agreedPrice cfg params) params.maxTokens) params.maxTokens := by
  have hbond : jobLockMicros (agreedPrice cfg params) .llm (.llm params) < 2 ^ 64 :=
    max_lt ((agreedPrice cfg params).chargeLlmMicros_lt _ _ _) (by decide)
  rw [BondSuffices, clamp_leaves_iff, promptMicros_lt hbond]
  constructor
  · rintro ⟨⟨hprompt, hanswer⟩, hmeter⟩
    obtain ⟨hword, hpaid⟩ := (le_authorizedTokens_iff hmax hbond hprompt).mp hmeter
    exact ⟨hword, hprompt, (le_ceilingFor_iff hmax hbond hprompt).mp hanswer, hpaid⟩
  · rintro ⟨hword, hprompt, hanswer, hpaid⟩
    exact ⟨⟨hprompt, (le_ceilingFor_iff hmax hbond hprompt).mpr hanswer⟩,
      (le_authorizedTokens_iff hmax hbond hprompt).mpr ⟨hword, hpaid⟩⟩

/-- The bond a client sizes for a job is good for all of it exactly where the nearest micro to its
cost pays for prompt and answer apart. -/
theorem bond_suffices_iff (hmax : params.maxTokens < 2 ^ 32) :
    BondSuffices cfg params already ↔
      params.promptTokens + params.maxTokens < 2 ^ 64 ∧
      round (promptCost (agreedPrice cfg params) params.promptTokens +
        answerCost (agreedPrice cfg params) params.maxTokens) < 2 ^ 64 ∧
      Sized (promptCost (agreedPrice cfg params) params.promptTokens)
        (answerCost (agreedPrice cfg params) params.maxTokens) params.maxTokens := by
  have hnone : params.maxTokens = 0 → answerCost (agreedPrice cfg params) params.maxTokens = 0 := by
    intro h
    rw [h, answerCost, Nat.cast_zero, zero_mul]
  rw [suffices_iff_pays hmax, pays_capped (by rw [jobLockMicros, charge_eq]),
    pays_iff_sized (promptCost_nonneg _) (answerCost_nonneg _) hnone]

end Agreement

section Asymmetric

/-- A chat model at fifteen cents to read and sixty to write. -/
def mini : Config where
  payments := LocalNode.payments
  payoutAddress := LocalNode.config.payoutAddress
  models := [{ id := Lib.Text.ofString "mini"
               kind := .llm
               price := some { amount := 3 / 5, input := some (3 / 20), output := some (3 / 5) } }]

theorem bond_suffices_thousand : BondSuffices mini { promptTokens := 1_000, maxTokens := 8_000 } 0 :=
  (bond_suffices_iff (by decide)).mpr (by decide +kernel)

/-- One token more of prompt rounds up to a micro that the bond, rounded to the nearest, has not. -/
theorem bond_short : ¬ BondSuffices mini { promptTokens := 1_001, maxTokens := 16_384 } 0 := by
  rw [suffices_iff_pays (by decide)]
  rintro ⟨-, -, hanswer, -⟩
  exact absurd (hanswer (by decide)) (by decide +kernel)

end Asymmetric

end Rootmode.Desktop
