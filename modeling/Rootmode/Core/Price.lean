import Mathlib.Algebra.Order.Floor.Ring
import Mathlib.Data.Rat.Floor
import Mathlib.Algebra.Order.Field.Basic
import Mathlib.Tactic.Linarith
import Mathlib.Tactic.Positivity
import Mathlib.Tactic.NormNum
import Rootmode.Lib.Checked

namespace Rootmode

open Lib.Checked

/-- Casting to an unsigned word of width `w` drops the fraction and saturates. -/
def castWord (w : ℕ) (x : ℚ) : ℕ := min ⌊x⌋.toNat (2 ^ w - 1)

/-- Halves round away from zero. -/
def roundAway (x : ℚ) : ℤ := if 0 ≤ x then ⌊x + 1 / 2⌋ else -⌊-x + 1 / 2⌋

/-- One prepaid authorisation covers this many tokens. -/
def tokenChunk : ℕ := 1_000_000

/-- What an operator asks for a model, in USD: per million tokens of text, per picture or clip.
Rates are taken as exact numbers. -/
structure Price where
  amount : ℚ := 0
  input : Option ℚ := none
  output : Option ℚ := none
  cache : Option ℚ := none
  cacheWrite : Option ℚ := none
  deriving DecidableEq

/-- A rate rounded up to two decimal places. -/
def ceilCents (x : ℚ) : ℚ :=
  if x ≤ 0 then 0
  else
    let scaled := x * 100
    let nearest : ℚ := roundAway scaled
    if |scaled - nearest| < 1 / 1_000_000 then nearest / 100 else ⌈scaled⌉ / 100

structure Rates where
  input : ℚ
  output : ℚ
  cache : ℚ
  cacheWrite : ℚ

namespace Price

variable (p : Price)

def new (amount : ℚ) : Price := { amount := ceilCents amount }

def isFree : Prop := p.amount ≤ 0 ∧ p.input.getD 0 ≤ 0 ∧ p.output.getD 0 ≤ 0

instance : Decidable p.isFree := inferInstanceAs (Decidable (_ ∧ _))

/-- Split rates per million tokens.  The flat amount fills every missing one. -/
def llmRates : Rates :=
  let input := ceilCents (p.input.getD p.amount)
  { input
    output := ceilCents (p.output.getD p.amount)
    cache := ceilCents (p.cache.getD input)
    cacheWrite := max (ceilCents (p.cacheWrite.getD input)) input }

/-- Dearest rate this price table will ever charge. -/
def maxRate : ℚ := max (max (max p.llmRates.input p.llmRates.output) p.llmRates.cacheWrite) 0

/-- Round every rate up to two decimal places. -/
def roundProtocol : Price :=
  let rounded : Price :=
    { amount := ceilCents p.amount
      input := p.input.map ceilCents
      output := p.output.map ceilCents
      cache := p.cache.map ceilCents
      cacheWrite := p.cacheWrite.map ceilCents }
  if rounded.amount < rounded.maxRate then { rounded with amount := rounded.maxRate } else rounded

/-- Charge for a chat, in micros.  A fresh prompt is billed at the dearer of reading it and writing
it to the cache. -/
def chargeLlmMicros (prompt completion cached : ℕ) : ℕ :=
  let cached := min cached prompt
  let uncached := prompt - cached
  let fresh := max p.llmRates.input p.llmRates.cacheWrite
  castWord 64 (max
    (roundAway (uncached * fresh + cached * p.llmRates.cache + completion * p.llmRates.output)) 0)

/-- Micros to buy a chunk of tokens at the dearest rate. -/
def chunkMicros : ℕ := castWord 64 (max (roundAway (tokenChunk * p.maxRate)) 1)

/-- How many tokens in total, the prompt included, a bond of `micros` covers. -/
def authorizedTokens (micros prompt : ℕ) : ℕ :=
  if p.llmRates.output ≤ 0 then 2 ^ 64 - 1
  else
    let left := micros - p.chargeLlmMicros prompt 0 0
    satAdd 64 prompt (castWord 64 (left / p.llmRates.output))

end Price

section Casts

theorem castWord_le (w : ℕ) {x : ℚ} {n : ℕ} (h : x ≤ n) : castWord w x ≤ n := by
  have hfloor : ⌊x⌋ ≤ n := by exact_mod_cast (Int.floor_le x).trans h
  unfold castWord
  omega

/-- A cast that did not saturate is at most what was cast. -/
theorem le_of_lt_castWord {w : ℕ} {x : ℚ} (h : 0 ≤ x) : (castWord w x : ℚ) ≤ x := by
  have hnonneg : 0 ≤ ⌊x⌋ := Int.floor_nonneg.mpr h
  have hle : (castWord w x : ℤ) ≤ ⌊x⌋ := by
    unfold castWord
    omega
  exact (by exact_mod_cast hle : (castWord w x : ℚ) ≤ (⌊x⌋ : ℚ)).trans (Int.floor_le x)

theorem lt_of_castWord_lt {w : ℕ} {x : ℚ} (h : castWord w x < 2 ^ w - 1) :
    ⌊x⌋ ≤ castWord w x := by
  unfold castWord at *
  omega

theorem castWord_lt (w : ℕ) (x : ℚ) : castWord w x < 2 ^ w := by
  have := Nat.two_pow_pos w
  unfold castWord
  omega

theorem Price.chargeLlmMicros_lt (p : Price) (prompt completion cached : ℕ) :
    p.chargeLlmMicros prompt completion cached < 2 ^ 64 := castWord_lt 64 _

theorem roundAway_le {x : ℚ} {n : ℕ} (h : x ≤ n) : roundAway x ≤ n := by
  unfold roundAway
  split
  · have hlt : x + 1 / 2 < (n : ℤ) + 1 := by push_cast; linarith
    have hfloor := Int.floor_lt.mpr (by exact_mod_cast hlt : x + 1 / 2 < ((n + 1 : ℤ) : ℚ))
    omega
  · next hneg =>
    have hpos : 0 ≤ ⌊-x + 1 / 2⌋ := Int.floor_nonneg.mpr (by linarith)
    omega

theorem ceilCents_nonneg (x : ℚ) : 0 ≤ ceilCents x := by
  unfold ceilCents
  split
  · exact le_rfl
  · next hx =>
    have hscaled : 0 ≤ x * 100 := by linarith
    have hnearest : 0 ≤ roundAway (x * 100) := by
      rw [roundAway, if_pos hscaled]
      exact Int.floor_nonneg.mpr (by linarith)
    have hceil : 0 ≤ ⌈x * 100⌉ := Int.ceil_nonneg hscaled
    dsimp only
    split
    · have : (0 : ℚ) ≤ roundAway (x * 100) := by exact_mod_cast hnearest
      positivity
    · have : (0 : ℚ) ≤ ⌈x * 100⌉ := by exact_mod_cast hceil
      positivity

end Casts

end Rootmode
