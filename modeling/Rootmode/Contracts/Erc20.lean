import Rootmode.Core.Crypto
import Mathlib.Data.FinEnum
import Rootmode.Lib.TotalMap

namespace Rootmode

open Lib.TotalMap

/-- A standard ERC-20 with EIP-2612 permits and no transfer fee, as seen by a contract that
calls it: `none` is a revert of the token, the `Bool` is what a transfer returns. -/
structure Erc20 (τ : Type) where
  balanceOf : τ → Address → ℕ
  transfer : τ → (sender receiver : Address) → (amount : ℕ) → Option (Bool × τ)
  transferFrom : τ → (spender sender receiver : Address) → (amount : ℕ) → Option (Bool × τ)
  permit : τ → (now : ℕ) → (owner spender : Address) → (amount deadline v : ℕ) →
    (r s : Bytes32) → Option τ
  balanceOf_lt : ∀ t a, balanceOf t a < 2 ^ 256
  transfer_moves : ∀ {t t' a b n}, transfer t a b n = some (true, t') →
    n ≤ balanceOf t a ∧ balanceOf t' = moved (balanceOf t) a b n
  transfer_pays : ∀ {t a n} b, n ≤ balanceOf t a → ∃ t', transfer t a b n = some (true, t')
  transferFrom_moves : ∀ {t t' c a b n}, transferFrom t c a b n = some (true, t') →
    n ≤ balanceOf t a ∧ balanceOf t' = moved (balanceOf t) a b n
  permit_keeps : ∀ {t t' now a b n d v r s}, permit t now a b n d v r s = some t' →
    balanceOf t' = balanceOf t

end Rootmode
