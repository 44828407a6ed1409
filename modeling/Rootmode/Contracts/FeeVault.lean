import Rootmode.Contracts.MockUsdc
import Rootmode.Lib.Checked
import Rootmode.Lib.Transition

namespace Rootmode.FeeVault

open Lib Lib.Checked Lib.Transition

/-- Why a call reverted.  `checked` is the compiler's own revert, `token` one inside the token. -/
inductive Revert
  | onlyAdmin | zeroAdmin | swapUnset | zeroTo | insufficient | nothingToWithdraw | transferFailed
  | buyTokenOff | tooSoon | nothingToSpend | approveFailed
  | checked | token
  deriving DecidableEq

def Revert.reason : Revert → Option String
  | .onlyAdmin => some "OnlyAdmin"
  | .zeroAdmin => some "ZeroAdmin"
  | .swapUnset => some "SwapUnset"
  | .zeroTo => some "ZeroTo"
  | .insufficient => some "Insufficient"
  | .nothingToWithdraw => some "NothingToWithdraw"
  | .transferFailed => some "TransferFailed"
  | .buyTokenOff => some "BuyTokenOff"
  | .tooSoon => some "TooSoon"
  | .nothingToSpend => some "NothingToSpend"
  | .approveFailed => some "ApproveFailed"
  | .checked => none
  | .token => none

structure ExactInputSingleParams where
  tokenIn : Address
  tokenOut : Address
  fee : ℕ
  recipient : Address
  amountIn : ℕ
  amountOutMinimum : ℕ
  sqrtPriceLimitX96 : ℕ

structure Storage where
  admin : Address
  projectToken : Address := 0
  router : Address := 0
  poolFee : ℕ := 0
  sink : Address := 0
  epoch : ℕ := 0
  lastBuyback : ℕ := 0
  buyToken : Bool := false
  deriving DecidableEq

/-- USDC as the vault calls it: `none` is a revert, the `Bool` is what a call returns.  It runs no
code but its own. -/
structure Usdc (τ : Type) where
  address : Address
  balanceOf : τ → Address → ℕ
  transfer : τ → (sender receiver : Address) → (amount : ℕ) → Option (Bool × τ)
  approve : τ → (owner spender : Address) → (amount : ℕ) → Option (Bool × τ)

/-- The vault's storage next to the state of all other contracts. -/
structure World (τ : Type) where
  vault : Storage
  others : τ

structure Deployment (τ : Type) where
  usdc : Usdc τ
  self : Address

structure Msg where
  sender : Address
  timestamp : ℕ
  deriving DecidableEq

variable {τ : Type} (E : Deployment τ)

section Calls

def onlyAdmin (m : Msg) (s : Storage) : Except Revert PUnit := require (m.sender = s.admin) .onlyAdmin

def setAdmin (m : Msg) (newAdmin : Address) (s : Storage) : Except Revert Storage := do
  onlyAdmin m s
  require (newAdmin ≠ 0) .zeroAdmin
  return { s with admin := newAdmin }

def setSwap (m : Msg) (projectToken router : Address) (poolFee : ℕ) (sink : Address) (epoch : ℕ) (s : Storage) :
    Except Revert Storage := do
  onlyAdmin m s
  return { s with projectToken, router, poolFee, sink, epoch }

def setBuyToken (m : Msg) (enabled : Bool) (s : Storage) : Except Revert Storage := do
  onlyAdmin m s
  require (enabled → ¬ (s.projectToken = 0 ∨ s.router = 0 ∨ s.sink = 0)) .swapUnset
  require (enabled → s.epoch ≠ 0) .swapUnset
  return { s with buyToken := enabled }

def withdraw (m : Msg) (receiver : Address) (amount : ℕ) (w : World τ) : Except Revert (World τ) := do
  onlyAdmin m w.vault
  require (receiver ≠ 0) .zeroTo
  let bal := E.usdc.balanceOf w.others E.self
  let spent := if amount = 0 then bal else amount
  require (amount = 0 ∨ amount ≤ bal) .insufficient
  require (spent ≠ 0) .nothingToWithdraw
  let (ok, others) ← demand (E.usdc.transfer w.others E.self receiver spent) .token
  require ok .transferFailed
  return ⟨w.vault, others⟩

/-- A buyback up to the call of the router: the router, what it is asked for, and the state it runs in. -/
def prepare (m : Msg) (minOut : ℕ) (w : World τ) :
    Except Revert (Address × ExactInputSingleParams × World τ) := do
  onlyAdmin m w.vault
  require w.vault.buyToken .buyTokenOff
  let next ← add 256 .checked w.vault.lastBuyback w.vault.epoch
  require (next ≤ m.timestamp) .tooSoon
  let spend := E.usdc.balanceOf w.others E.self
  require (spend ≠ 0) .nothingToSpend
  let lastBuyback ← narrow 64 .checked m.timestamp
  let vault := { w.vault with lastBuyback }
  let (approved, others) ← demand (E.usdc.approve w.others E.self vault.router spend) .token
  require approved .approveFailed
  return (vault.router,
    { tokenIn := E.usdc.address, tokenOut := vault.projectToken, fee := vault.poolFee, recipient := vault.sink,
      amountIn := spend, amountOutMinimum := minOut, sqrtPriceLimitX96 := 0 },
    ⟨vault, others⟩)

end Calls

inductive Call
  | setAdmin (newAdmin : Address)
  | setSwap (projectToken router : Address) (poolFee : ℕ) (sink : Address) (epoch : ℕ)
  | setBuyToken (enabled : Bool)
  | withdraw (receiver : Address) (amount : ℕ)
  | buyback (minOut : ℕ)
  deriving DecidableEq

/-- The arguments fit their types. -/
def Call.Decodes : Call → Prop
  | .setAdmin _ => True
  | .setSwap _ _ poolFee _ epoch => poolFee < 2 ^ 24 ∧ epoch < 2 ^ 64
  | .setBuyToken _ => True
  | .withdraw _ amount => amount < 2 ^ 256
  | .buyback minOut => minOut < 2 ^ 256

instance (c : Call) : Decidable c.Decodes := by
  cases c <;> unfold Call.Decodes <;> infer_instance

/-- A call that runs no code of others but the token's. -/
def exec (m : Msg) (c : Call) (w : World τ) : Except Revert (World τ) :=
  match c with
  | .setAdmin newAdmin => (setAdmin m newAdmin w.vault).map (⟨·, w.others⟩)
  | .setSwap projectToken router poolFee sink epoch =>
    (setSwap m projectToken router poolFee sink epoch w.vault).map (⟨·, w.others⟩)
  | .setBuyToken enabled => (setBuyToken m enabled w.vault).map (⟨·, w.others⟩)
  | .withdraw receiver amount => withdraw E m receiver amount w
  | .buyback _ => .error .checked

/-- A buyback that went through: when, with which epoch, through whom and what for. -/
structure Trade where
  time : ℕ
  epoch : ℕ
  router : Address
  params : ExactInputSingleParams

/-- What goes on at one time: calls of the vault that meet `C`, those among them that the router of a
buyback makes before it is back, and whatever else there is on the chain.  Calls that revert change
nothing. -/
inductive Turn (C : Storage → Call → Prop) (now : ℕ) : World τ → World τ → List Trade → Prop
  | idle (w : World τ) : Turn C now w w []
  | others {v : Storage} {t : τ} (t' : τ) {w : World τ} {log : List Trade} :
      Turn C now ⟨v, t'⟩ w log → Turn C now ⟨v, t⟩ w log
  | call (sender : Address) {c : Call} {w w₁ w₂ : World τ} {log : List Trade} :
      c.Decodes → C w.vault c → exec E ⟨sender, now⟩ c w = .ok w₁ → Turn C now w₁ w₂ log →
      Turn C now w w₂ log
  | buyback (sender : Address) {minOut : ℕ} {router : Address} {params : ExactInputSingleParams}
      {w w₁ w₂ w₃ : World τ} {log log' : List Trade} :
      (Call.buyback minOut).Decodes → C w.vault (.buyback minOut) →
      prepare E ⟨sender, now⟩ minOut w = .ok (router, params, w₁) → Turn C now w₁ w₂ log →
      Turn C now w₂ w₃ log' →
      Turn C now w w₃ (⟨now, w.vault.epoch, router, params⟩ :: (log ++ log'))

/-- A chain, and the buybacks there were on it. -/
structure Chain (τ : Type) where
  now : ℕ
  world : World τ
  log : List Trade

inductive Step (C : Storage → Call → Prop) : Labelled (Chain τ) ℕ
  | mk {s : Chain τ} {now : ℕ} {w : World τ} {log : List Trade} :
      s.now ≤ now → Turn E C now s.world w log → Step C s now ⟨now, w, s.log ++ log⟩

/-- A vault just deployed. -/
def Chain.Genesis (s : Chain τ) : Prop := s.world.vault = { admin := s.world.vault.admin } ∧ s.log = []

/-- The switch is on only while all that a buyback needs is there. -/
def Storage.Safe (s : Storage) : Prop :=
  s.buyToken → s.projectToken ≠ 0 ∧ s.router ≠ 0 ∧ s.sink ≠ 0 ∧ 0 < s.epoch

/-- A buyback through a real router, for a real token and to a real sink, in a positive epoch. -/
structure Trade.Real (b : Trade) : Prop where
  router : b.router ≠ 0
  tokenOut : b.params.tokenOut ≠ 0
  recipient : b.params.recipient ≠ 0
  epoch : 0 < b.epoch

/-- Of two buybacks the second came no earlier than an epoch after the first. -/
def Trade.Before (a b : Trade) : Prop := a.time + b.epoch ≤ b.time

/-- What the vault's switch is to guarantee. -/
structure Chain.Guarded (s : Chain τ) : Prop where
  safe : s.world.vault.Safe
  real : ∀ b ∈ s.log, b.Real
  apart : s.log.Pairwise Trade.Before

/-- The settings are changed to complete ones while the switch is on. -/
def Careful (s : Storage) : Call → Prop
  | .setSwap projectToken router _ sink epoch =>
    s.buyToken → projectToken ≠ 0 ∧ router ≠ 0 ∧ sink ≠ 0 ∧ 0 < epoch
  | _ => True

end Rootmode.FeeVault
