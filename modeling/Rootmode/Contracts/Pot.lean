import Rootmode.Contracts.Erc20
import Rootmode.Lib.Checked

namespace Rootmode.Pot

open Lib Lib.Bytes Lib.Checked

/-- Why a call reverted.  `checked` is the compiler's own revert (checked arithmetic, conversions
and argument ranges), `token` a revert inside the token. -/
inductive Revert
  | zeroAmount | transferFailed | expired | noAppKey | badSignature | notMonotonic | notEnough
  | noReserve | overCap | tooSoon
  | checked | token
  deriving DecidableEq

def Revert.reason : Revert → Option String
  | .zeroAmount => some "ZeroAmount"
  | .transferFailed => some "TransferFailed"
  | .expired => some "Expired"
  | .noAppKey => some "NoAppKey"
  | .badSignature => some "BadSignature"
  | .notMonotonic => some "NotMonotonic"
  | .notEnough => some "NotEnough"
  | .noReserve => some "NoReserve"
  | .overCap => some "OverCap"
  | .tooSoon => some "TooSoon"
  | .checked => none
  | .token => none

structure Account where
  balance : ℕ := 0
  maxPerJob : ℕ := 0
  maxPerDay : ℕ := 0
  spentToday : ℕ := 0
  dayStart : ℕ := 0
  appKey : Address := 0
  deriving DecidableEq

structure Channel where
  reserved : ℕ := 0
  paid : ℕ := 0
  deadline : ℕ := 0
  closeAt : ℕ := 0
  appKey : Address := 0
  /-- Highest spend ticket recorded: close may only return `reserved - earned`. -/
  earned : ℕ := 0
  maxPerJob : ℕ := 0
  maxPerDay : ℕ := 0
  deriving DecidableEq

structure Storage where
  accounts : Address → Account := fun _ => {}
  channels : Address → Address → Channel := fun _ _ => {}

/-- The contract's storage next to the state of the token it holds. -/
structure World (τ : Type) where
  pot : Storage
  usdc : τ

/-- The immutables of one deployment and the code it calls. -/
structure Deployment (τ : Type) where
  crypto : Crypto
  token : Erc20 τ
  self : Address
  feeVault : Address
  grace : ℕ
  chainId : ℕ

structure Msg where
  sender : Address
  timestamp : ℕ
  deriving DecidableEq

def feeBps : ℕ := 1000

def day : ℕ := 86400

section Storage

variable (s : Storage)

def Storage.setAccount (client : Address) (a : Account) : Storage :=
  { s with accounts := Function.update s.accounts client a }

def Storage.setChannel (client worker : Address) (ch : Channel) : Storage :=
  { s with
    channels := Function.update s.channels client
      (Function.update (s.channels client) worker ch) }

@[simp] theorem Storage.setAccount_channels (c : Address) (a : Account) :
    (s.setAccount c a).channels = s.channels := rfl

@[simp] theorem Storage.setChannel_accounts (c w : Address) (ch : Channel) :
    (s.setChannel c w ch).accounts = s.accounts := rfl

@[simp] theorem Storage.setAccount_self (c : Address) (a : Account) :
    (s.setAccount c a).accounts c = a := by simp [Storage.setAccount]

theorem Storage.setAccount_of_ne {c d : Address} (a : Account) (h : d ≠ c) :
    (s.setAccount c a).accounts d = s.accounts d := by simp [Storage.setAccount, h]

@[simp] theorem Storage.setChannel_self (c w : Address) (ch : Channel) :
    (s.setChannel c w ch).channels c w = ch := by simp [Storage.setChannel]

theorem Storage.setChannel_of_ne {c w d v : Address} (ch : Channel) (h : ¬ (d = c ∧ v = w)) :
    (s.setChannel c w ch).channels d v = s.channels d v := by
  by_cases hd : d = c
  · subst hd
    have hv : v ≠ w := fun hv => h ⟨rfl, hv⟩
    simp [Storage.setChannel, hv]
  · simp [Storage.setChannel, hd]

end Storage

/-- USDC still sitting here for a pair: unused reserve plus billed but uncollected. -/
def Channel.locked (ch : Channel) : ℕ :=
  if ch.reserved ≤ ch.paid then 0 else ch.reserved - ch.paid

def locked (s : Storage) (client worker : Address) : ℕ := (s.channels client worker).locked

variable {τ : Type} (E : Deployment τ)

def domainSeparator : Bytes32 := E.crypto.domainSeparator "RootmodePot" E.chainId E.self

def digest (structHash : Bytes32) : Bytes32 := E.crypto.typedDigest (domainSeparator E) structHash

def reserveTypehash : String :=
  "ReserveTicket(address client,address workerPayout,uint256 maxAmount,uint64 deadline)"

def ticketTypehash : String :=
  "SpendTicket(address client,address workerPayout,uint256 cumulative,uint64 deadline)"

/-- The EIP-712 digest of a `(client, workerPayout, amount, deadline)` ticket of either type. -/
def ticketDigest (typehash : String) (client workerPayout : Address) (amount deadline : ℕ) :
    Bytes32 :=
  digest E (E.crypto.keccak256 (abiEncode
    [(E.crypto.keccak256 (ascii typehash)).toNat, client.toNat, workerPayout.toNat, amount,
      deadline]))

def recover (digest : Bytes32) (sig : Bytes) : Except Revert Address := do
  require (sig.length = 65) .badSignature
  let r := ofBigEndian (sig.take 32)
  let s := ofBigEndian ((sig.drop 32).take 32)
  let v := ofBigEndian (sig.drop 64)
  let v := if v < 27 then v + 27 else v
  require (s ≤ secp256k1nHalf) .badSignature
  let signer := E.crypto.ecrecover digest v r s
  require (signer ≠ 0) .badSignature
  return signer

def pull (m : Msg) (amount : ℕ) (usdc : τ) : Except Revert τ :=
  match E.token.transferFrom usdc E.self m.sender E.self amount with
  | none => .error .token
  | some (ok, usdc') => if ok then .ok usdc' else .error .transferFailed

def push (receiver : Address) (amount : ℕ) (usdc : τ) : Except Revert τ :=
  match E.token.transfer usdc E.self receiver amount with
  | none => .error .token
  | some (ok, usdc') => if ok then .ok usdc' else .error .transferFailed

/-- A push that is left out when there is nothing to send. -/
def pushSome (receiver : Address) (amount : ℕ) (usdc : τ) : Except Revert τ :=
  if 0 < amount then push E receiver amount usdc else .ok usdc

def credit (m : Msg) (amount maxPerJob maxPerDay : ℕ) (appKey : Address) (s : Storage) :
    Except Revert Storage := do
  let a := s.accounts m.sender
  let balance ← add 256 .checked a.balance amount
  return s.setAccount m.sender { a with
    balance
    maxPerJob := if 0 < maxPerJob then maxPerJob else a.maxPerJob
    maxPerDay := if 0 < maxPerDay then maxPerDay else a.maxPerDay
    appKey := if appKey ≠ 0 then appKey else a.appKey }

def deposit (m : Msg) (amount maxPerJob maxPerDay : ℕ) (appKey : Address) (w : World τ) :
    Except Revert (World τ) := do
  require (amount ≠ 0) .zeroAmount
  let usdc ← pull E m amount w.usdc
  let pot ← credit m amount maxPerJob maxPerDay appKey w.pot
  return ⟨pot, usdc⟩

def permit (m : Msg) (amount deadline v : ℕ) (r s : Bytes32) (usdc : τ) : Except Revert τ :=
  match E.token.permit usdc m.timestamp m.sender E.self amount deadline v r s with
  | none => .error .token
  | some usdc' => .ok usdc'

def depositWithPermit (m : Msg) (amount maxPerJob maxPerDay : ℕ) (appKey : Address)
    (deadline v : ℕ) (r s : Bytes32) (w : World τ) : Except Revert (World τ) := do
  require (amount ≠ 0) .zeroAmount
  let usdc ← permit E m amount deadline v r s w.usdc
  let usdc ← pull E m amount usdc
  let pot ← credit m amount maxPerJob maxPerDay appKey w.pot
  return ⟨pot, usdc⟩

def withdrawAll (m : Msg) (w : World τ) : Except Revert (World τ) := do
  let a := w.pot.accounts m.sender
  let pot := w.pot.setAccount m.sender { a with balance := 0, appKey := 0 }
  let usdc ← pushSome E m.sender a.balance w.usdc
  return ⟨pot, usdc⟩

def setLimits (m : Msg) (maxPerJob maxPerDay : ℕ) (appKey : Address) (s : Storage) : Storage :=
  let a := s.accounts m.sender
  s.setAccount m.sender { a with
    maxPerJob
    maxPerDay
    appKey := if appKey ≠ 0 then appKey else a.appKey }

/-- A cap that is not set yet, or below the account's, takes the account's. -/
def raiseCap (cap account : ℕ) : ℕ := if cap = 0 ∨ cap < account then account else cap

def reserve (m : Msg) (client workerPayout : Address) (maxAmount deadline : ℕ) (appSig : Bytes)
    (s : Storage) : Except Revert Storage := do
  let a := s.accounts client
  let ch := s.channels client workerPayout
  require (m.timestamp < deadline) .expired
  require (a.appKey ≠ 0) .noAppKey
  let signer ← recover E (ticketDigest E reserveTypehash client workerPayout maxAmount deadline)
    appSig
  require (signer = a.appKey) .badSignature
  require (ch.appKey = 0 ∨ ch.appKey = a.appKey) .badSignature
  require (ch.reserved < maxAmount) .notMonotonic
  let extra := maxAmount - ch.reserved
  require (extra ≤ a.balance) .notEnough
  return (s.setAccount client { a with balance := a.balance - extra }).setChannel client
    workerPayout { ch with
      appKey := a.appKey
      maxPerJob := raiseCap ch.maxPerJob a.maxPerJob
      maxPerDay := raiseCap ch.maxPerDay a.maxPerDay
      reserved := maxAmount
      deadline := if ch.deadline < deadline then deadline else ch.deadline
      closeAt := 0 }

/-- The account's day is over at `now`. -/
def Account.dayOver (a : Account) (now : ℕ) : Prop := a.dayStart = 0 ∨ a.dayStart + day ≤ now

instance (a : Account) (now : ℕ) : Decidable (a.dayOver now) := inferInstanceAs (Decidable (_ ∨ _))

def rollDay (m : Msg) (a : Account) : Except Revert Account :=
  if a.dayOver m.timestamp then do
    let dayStart ← narrow 64 .checked m.timestamp
    return { a with dayStart, spentToday := 0 }
  else .ok a

/-- The daily cap, zero meaning none. -/
def checkDay (maxPerDay spentToday delta : ℕ) : Except Revert PUnit :=
  if 0 < maxPerDay then do
    let spent ← add 256 .checked spentToday delta
    require (spent ≤ maxPerDay) .overCap
  else .ok ⟨⟩

def recognize (m : Msg) (client workerPayout : Address) (cumulative deadline : ℕ)
    (appSig : Bytes) (s : Storage) : Except Revert Storage := do
  let ch := s.channels client workerPayout
  require (ch.appKey ≠ 0) .noReserve
  require (m.timestamp ≤ deadline) .expired
  require (ch.earned < cumulative) .notMonotonic
  require (cumulative ≤ ch.reserved) .overCap
  let delta := cumulative - ch.earned
  require (ch.maxPerJob ≠ 0 ∧ delta ≤ ch.maxPerJob) .overCap
  let a ← rollDay m (s.accounts client)
  checkDay ch.maxPerDay a.spentToday delta
  let signer ← recover E (ticketDigest E ticketTypehash client workerPayout cumulative deadline)
    appSig
  require (signer = ch.appKey) .badSignature
  let spentToday ← add 256 .checked a.spentToday delta
  return (s.setAccount client { a with spentToday }).setChannel client workerPayout
    { ch with earned := cumulative }

/-- The vault's share of a payment. -/
def feeOf (amount : ℕ) : ℕ := amount * feeBps / 10000

def pay (client workerPayout : Address) (w : World τ) : Except Revert (World τ) := do
  let ch := w.pot.channels client workerPayout
  require (ch.paid < ch.earned) .notMonotonic
  let amount := ch.earned - ch.paid
  let scaled ← mul 256 .checked amount feeBps
  let fee := scaled / 10000
  let usdc ← push E workerPayout (amount - fee) w.usdc
  let usdc ← pushSome E E.feeVault fee usdc
  return ⟨w.pot.setChannel client workerPayout { ch with paid := ch.earned }, usdc⟩

def commit (m : Msg) (client workerPayout : Address) (cumulative deadline : ℕ) (appSig : Bytes)
    (w : World τ) : Except Revert (World τ) := do
  let pot ← recognize E m client workerPayout cumulative deadline appSig w.pot
  return { w with pot }

def settle (m : Msg) (client workerPayout : Address) (cumulative deadline : ℕ) (appSig : Bytes)
    (w : World τ) : Except Revert (World τ) := do
  let pot ← recognize E m client workerPayout cumulative deadline appSig w.pot
  pay E client workerPayout { w with pot }

def collect (client workerPayout : Address) (w : World τ) : Except Revert (World τ) :=
  pay E client workerPayout w

def requestClose (m : Msg) (workerPayout : Address) (s : Storage) : Except Revert Storage := do
  let ch := s.channels m.sender workerPayout
  require (ch.appKey ≠ 0) .noReserve
  require (ch.earned < ch.reserved) .noReserve
  let now ← narrow 64 .checked m.timestamp
  let closeAt ← add 64 .checked now E.grace
  return s.setChannel m.sender workerPayout { ch with closeAt }

/-- The grace period the client asked for is over. -/
def Channel.timedOut (ch : Channel) (now : ℕ) : Prop := ch.closeAt ≠ 0 ∧ ch.closeAt ≤ now

/-- The channel has outlived its own deadline. -/
def Channel.expired (ch : Channel) (now : ℕ) : Prop := ch.deadline ≠ 0 ∧ ch.deadline < now

instance (ch : Channel) (now : ℕ) : Decidable (ch.timedOut now) :=
  inferInstanceAs (Decidable (_ ∧ _))

instance (ch : Channel) (now : ℕ) : Decidable (ch.expired now) :=
  inferInstanceAs (Decidable (_ ∧ _))

def close (m : Msg) (client workerPayout : Address) (s : Storage) : Except Revert Storage := do
  let a := s.accounts client
  let ch := s.channels client workerPayout
  require (ch.appKey ≠ 0) .noReserve
  require (ch.timedOut m.timestamp ∨ ch.expired m.timestamp) .tooSoon
  let unspent ← sub .checked ch.reserved ch.earned
  let balance ← add 256 .checked a.balance unspent
  return (s.setAccount client { a with balance }).setChannel client workerPayout
    { ch with reserved := ch.earned, closeAt := 0, maxPerJob := 0, maxPerDay := 0 }

inductive Call
  | deposit (amount maxPerJob maxPerDay : ℕ) (appKey : Address)
  | depositWithPermit (amount maxPerJob maxPerDay : ℕ) (appKey : Address) (deadline v : ℕ)
      (r s : Bytes32)
  | withdrawAll
  | setLimits (maxPerJob maxPerDay : ℕ) (appKey : Address)
  | reserve (client workerPayout : Address) (maxAmount deadline : ℕ) (appSig : Bytes)
  | commit (client workerPayout : Address) (cumulative deadline : ℕ) (appSig : Bytes)
  | settle (client workerPayout : Address) (cumulative deadline : ℕ) (appSig : Bytes)
  | collect (client workerPayout : Address)
  | requestClose (workerPayout : Address)
  | close (client workerPayout : Address)
  deriving DecidableEq

/-- The calldata decodes: every argument is in the range of its ABI type. -/
def Call.Decodes : Call → Prop
  | .deposit amount maxPerJob maxPerDay _ =>
    amount < 2 ^ 256 ∧ maxPerJob < 2 ^ 256 ∧ maxPerDay < 2 ^ 256
  | .depositWithPermit amount maxPerJob maxPerDay _ deadline v _ _ =>
    amount < 2 ^ 256 ∧ maxPerJob < 2 ^ 256 ∧ maxPerDay < 2 ^ 256 ∧ deadline < 2 ^ 256 ∧ v < 2 ^ 8
  | .withdrawAll => True
  | .setLimits maxPerJob maxPerDay _ => maxPerJob < 2 ^ 256 ∧ maxPerDay < 2 ^ 256
  | .reserve _ _ amount deadline sig => amount < 2 ^ 256 ∧ deadline < 2 ^ 64 ∧ sig.length ≤ 65
  | .commit _ _ amount deadline sig => amount < 2 ^ 256 ∧ deadline < 2 ^ 64 ∧ sig.length ≤ 65
  | .settle _ _ amount deadline sig => amount < 2 ^ 256 ∧ deadline < 2 ^ 64 ∧ sig.length ≤ 65
  | .collect _ _ => True
  | .requestClose _ => True
  | .close _ _ => True

instance : (c : Call) → Decidable c.Decodes
  | .deposit .. => inferInstanceAs (Decidable (_ ∧ _))
  | .depositWithPermit .. => inferInstanceAs (Decidable (_ ∧ _))
  | .withdrawAll => inferInstanceAs (Decidable True)
  | .setLimits .. => inferInstanceAs (Decidable (_ ∧ _))
  | .reserve .. => inferInstanceAs (Decidable (_ ∧ _))
  | .commit .. => inferInstanceAs (Decidable (_ ∧ _))
  | .settle .. => inferInstanceAs (Decidable (_ ∧ _))
  | .collect .. => inferInstanceAs (Decidable True)
  | .requestClose _ => inferInstanceAs (Decidable True)
  | .close .. => inferInstanceAs (Decidable True)

def run (m : Msg) : Call → World τ → Except Revert (World τ)
  | .deposit amount maxPerJob maxPerDay appKey, w => deposit E m amount maxPerJob maxPerDay appKey w
  | .depositWithPermit amount maxPerJob maxPerDay appKey deadline v r s, w =>
    depositWithPermit E m amount maxPerJob maxPerDay appKey deadline v r s w
  | .withdrawAll, w => withdrawAll E m w
  | .setLimits maxPerJob maxPerDay appKey, w =>
    .ok { w with pot := setLimits m maxPerJob maxPerDay appKey w.pot }
  | .reserve client workerPayout maxAmount deadline sig, w => do
    let pot ← reserve E m client workerPayout maxAmount deadline sig w.pot
    return { w with pot }
  | .commit client workerPayout cumulative deadline sig, w =>
    commit E m client workerPayout cumulative deadline sig w
  | .settle client workerPayout cumulative deadline sig, w =>
    settle E m client workerPayout cumulative deadline sig w
  | .collect client workerPayout, w => collect E client workerPayout w
  | .requestClose workerPayout, w => do
    let pot ← requestClose E m workerPayout w.pot
    return { w with pot }
  | .close client workerPayout, w => do
    let pot ← close m client workerPayout w.pot
    return { w with pot }

/-- One external call: it takes effect as a whole or reverts. -/
def exec (m : Msg) (c : Call) (w : World τ) : Except Revert (World τ) := do
  require c.Decodes .checked
  run E m c w

end Rootmode.Pot
