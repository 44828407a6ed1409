import Rootmode.Contracts.PotSpec

namespace Rootmode.Channels

open Lib Lib.Bytes Lib.Checked Lib.TotalMap
open Pot (Deployment Msg feeBps feeOf feeOf_le)

/-- Why a call reverted: in a way the pot knows as well, or in one of its own. -/
inductive Revert
  | shared (r : Pot.Revert)
  | wrongChannel | overReserved | stillOpen
  deriving DecidableEq

def Revert.reason : Revert → Option String
  | .shared r => r.reason
  | .wrongChannel => some "WrongChannel"
  | .overReserved => some "OverReserved"
  | .stillOpen => some "StillOpen"

structure Channel where
  client : Address := 0
  workerPayout : Address := 0
  reserved : ℕ := 0
  paid : ℕ := 0
  deadline : ℕ := 0
  deriving DecidableEq

structure Storage where
  /-- Unspent, unreserved balance per client. -/
  balanceOf : Address → ℕ := fun _ => 0
  channels : Bytes32 → Channel := fun _ => {}

/-- The contract's storage next to the state of the token it holds. -/
structure World (τ : Type) where
  book : Storage
  usdc : τ

section Storage

variable (s : Storage)

def Storage.setBalance (client : Address) (balance : ℕ) : Storage :=
  { s with balanceOf := Function.update s.balanceOf client balance }

def Storage.setChannel (channelId : Bytes32) (ch : Channel) : Storage :=
  { s with channels := Function.update s.channels channelId ch }

@[simp] theorem Storage.setBalance_channels (c : Address) (balance : ℕ) :
    (s.setBalance c balance).channels = s.channels := rfl

@[simp] theorem Storage.setChannel_balanceOf (id : Bytes32) (ch : Channel) :
    (s.setChannel id ch).balanceOf = s.balanceOf := rfl

@[simp] theorem Storage.setChannel_self (id : Bytes32) (ch : Channel) :
    (s.setChannel id ch).channels id = ch := by simp [Storage.setChannel]

theorem Storage.setChannel_of_ne {id id' : Bytes32} (ch : Channel) (h : id' ≠ id) :
    (s.setChannel id ch).channels id' = s.channels id' := by
  simp [Storage.setChannel, h]

end Storage

variable {τ : Type} (E : Deployment τ)

def domainSeparator : Bytes32 := E.crypto.domainSeparator "RootmodeChannels" E.chainId E.self

def digest (structHash : Bytes32) : Bytes32 := E.crypto.typedDigest (domainSeparator E) structHash

def reserveTypehash : String :=
  "ReserveAuth(bytes32 channelId,address client,address workerPayout,uint256 maxAmount,uint256 deadline)"

def spendTypehash : String :=
  "SpendingAuth(bytes32 channelId,address client,uint256 cumulative,bytes32 metadataHash)"

def reserveDigest (channelId : Bytes32) (client workerPayout : Address) (maxAmount deadline : ℕ) :
    Bytes32 :=
  digest E (E.crypto.keccak256 (abiEncode
    [(E.crypto.keccak256 (ascii reserveTypehash)).toNat, channelId.toNat, client.toNat,
      workerPayout.toNat, maxAmount, deadline]))

def spendDigest (channelId : Bytes32) (client : Address) (cumulative : ℕ)
    (metadataHash : Bytes32) : Bytes32 :=
  digest E (E.crypto.keccak256 (abiEncode
    [(E.crypto.keccak256 (ascii spendTypehash)).toNat, channelId.toNat, client.toNat, cumulative,
      metadataHash.toNat]))

/-- The signature and token helpers are the pot's, line for line. -/
def recover (digest : Bytes32) (sig : Bytes) : Except Revert Address :=
  (Pot.recover E digest sig).mapError .shared

def pull (m : Msg) (amount : ℕ) (usdc : τ) : Except Revert τ :=
  (Pot.pull E m amount usdc).mapError .shared

def push (receiver : Address) (amount : ℕ) (usdc : τ) : Except Revert τ :=
  (Pot.push E receiver amount usdc).mapError .shared

def pushSome (receiver : Address) (amount : ℕ) (usdc : τ) : Except Revert τ :=
  (Pot.pushSome E receiver amount usdc).mapError .shared

def deposit (m : Msg) (client : Address) (amount : ℕ) (w : World τ) : Except Revert (World τ) := do
  let usdc ← pull E m amount w.usdc
  let balance ← add 256 (.shared .checked) (w.book.balanceOf client) amount
  return ⟨w.book.setBalance client balance, usdc⟩

def withdraw (m : Msg) (amount : ℕ) (w : World τ) : Except Revert (World τ) := do
  require (amount ≤ w.book.balanceOf m.sender) (.shared .notEnough)
  let book := w.book.setBalance m.sender (w.book.balanceOf m.sender - amount)
  let usdc ← push E m.sender amount w.usdc
  return ⟨book, usdc⟩

/-- A channel nobody has opened yet takes the names and the deadline of who does. -/
def Channel.opened (ch : Channel) (client workerPayout : Address) (deadline : ℕ) : Channel :=
  if ch.client = 0 then { ch with client, workerPayout, deadline } else ch

def reserve (m : Msg) (channelId : Bytes32) (client workerPayout : Address)
    (maxAmount deadline : ℕ) (sig : Bytes) (s : Storage) : Except Revert Storage := do
  require (m.timestamp < deadline) (.shared .expired)
  let signer ← recover E (reserveDigest E channelId client workerPayout maxAmount deadline) sig
  require (signer = client) (.shared .badSignature)
  let ch := s.channels channelId
  require (ch.client = 0 ∨ ch.client = client ∧ ch.workerPayout = workerPayout) .wrongChannel
  let ch := ch.opened client workerPayout deadline
  require (ch.reserved < maxAmount) (.shared .notMonotonic)
  let extra := maxAmount - ch.reserved
  require (extra ≤ s.balanceOf client) (.shared .notEnough)
  return (s.setBalance client (s.balanceOf client - extra)).setChannel channelId
    { ch with
      reserved := maxAmount
      deadline := if ch.deadline < deadline then deadline else ch.deadline }

def redeem (channelId : Bytes32) (cumulative : ℕ) (metadataHash : Bytes32) (sig : Bytes)
    (w : World τ) : Except Revert (World τ) := do
  let ch := w.book.channels channelId
  require (ch.client ≠ 0) .wrongChannel
  require (ch.paid < cumulative) (.shared .notMonotonic)
  require (cumulative ≤ ch.reserved) .overReserved
  let signer ← recover E (spendDigest E channelId ch.client cumulative metadataHash) sig
  require (signer = ch.client) (.shared .badSignature)
  let owed := cumulative - ch.paid
  let scaled ← mul 256 (.shared .checked) owed feeBps
  let fee := scaled / 10000
  let usdc ← push E ch.workerPayout (owed - fee) w.usdc
  let usdc ← pushSome E E.feeVault fee usdc
  return ⟨w.book.setChannel channelId { ch with paid := cumulative }, usdc⟩

def close (m : Msg) (channelId : Bytes32) (s : Storage) : Except Revert Storage := do
  let ch := s.channels channelId
  require (ch.client ≠ 0) .wrongChannel
  require (ch.deadline < m.timestamp) .stillOpen
  let unspent ← sub (.shared .checked) ch.reserved ch.paid
  let balance ← add 256 (.shared .checked) (s.balanceOf ch.client) unspent
  return (s.setChannel channelId { ch with reserved := ch.paid }).setBalance ch.client balance

inductive Call
  | deposit (client : Address) (amount : ℕ)
  | withdraw (amount : ℕ)
  | reserve (channelId : Bytes32) (client workerPayout : Address) (maxAmount deadline : ℕ)
      (sig : Bytes)
  | redeem (channelId : Bytes32) (cumulative : ℕ) (metadataHash : Bytes32) (sig : Bytes)
  | close (channelId : Bytes32)

/-- The calldata decodes: every argument is in the range of its ABI type. -/
def Call.Decodes : Call → Prop
  | .deposit _ amount => amount < 2 ^ 256
  | .withdraw amount => amount < 2 ^ 256
  | .reserve _ _ _ maxAmount deadline sig =>
    maxAmount < 2 ^ 256 ∧ deadline < 2 ^ 64 ∧ sig.length ≤ 65
  | .redeem _ cumulative _ sig => cumulative < 2 ^ 256 ∧ sig.length ≤ 65
  | .close _ => True

instance : (c : Call) → Decidable c.Decodes
  | .deposit _ _ => inferInstanceAs (Decidable (_ < _))
  | .withdraw _ => inferInstanceAs (Decidable (_ < _))
  | .reserve _ _ _ _ _ _ => inferInstanceAs (Decidable (_ ∧ _))
  | .redeem _ _ _ _ => inferInstanceAs (Decidable (_ ∧ _))
  | .close _ => inferInstanceAs (Decidable True)

def run (m : Msg) : Call → World τ → Except Revert (World τ)
  | .deposit client amount, w => deposit E m client amount w
  | .withdraw amount, w => withdraw E m amount w
  | .reserve channelId client workerPayout maxAmount deadline sig, w => do
    let book ← reserve E m channelId client workerPayout maxAmount deadline sig w.book
    return { w with book }
  | .redeem channelId cumulative metadataHash sig, w =>
    redeem E channelId cumulative metadataHash sig w
  | .close channelId, w => do
    let book ← close m channelId w.book
    return { w with book }

/-- One external call: it takes effect as a whole or reverts. -/
def exec (m : Msg) (c : Call) (w : World τ) : Except Revert (World τ) := do
  require c.Decodes (.shared .checked)
  run E m c w

section Spec

variable {E} {m : Msg} {w w' : World τ} {s s' : Storage} {channelId : Bytes32}
  {client workerPayout : Address} {amount maxAmount cumulative deadline : ℕ}
  {metadataHash : Bytes32} {sig : Bytes}

@[simp] theorem pure_eq_ok {α : Type} (a b : α) :
    (pure a : Except Revert α) = .ok b ↔ a = b := by
  change Except.ok a = Except.ok b ↔ a = b
  exact Except.ok.injEq a b ▸ Iff.rfl

/-- What the contract holds of the token. -/
def held (E : Deployment τ) (w : World τ) : ℕ := E.token.balanceOf w.usdc E.self

theorem recover_ne_zero {digest : Bytes32} {signer : Address}
    (h : recover E digest sig = .ok signer) : signer ≠ 0 :=
  Pot.recover_ne_zero ((mapError_eq_ok _ _ _).mp h)

theorem exec_eq_ok {c : Call} : exec E m c w = .ok w' ↔ c.Decodes ∧ run E m c w = .ok w' := by
  simp only [exec, bind_eq_ok, require_eq_ok]
  constructor
  · rintro ⟨-, hc, h⟩
    exact ⟨hc, h⟩
  · rintro ⟨hc, h⟩
    exact ⟨⟨⟩, hc, h⟩

theorem deposit_ok (hm : m.sender ≠ E.self) (h : deposit E m client amount w = .ok w') :
    w'.book = w.book.setBalance client (w.book.balanceOf client + amount) ∧
      held E w' = held E w + amount := by
  simp only [deposit, pull, bind_eq_ok, mapError_eq_ok, add_eq_ok, pure_eq_ok] at h
  obtain ⟨usdc, hpull, balance, ⟨-, rfl⟩, rfl⟩ := h
  exact ⟨rfl, Pot.pull_held hm hpull⟩

theorem withdraw_ok (h : withdraw E m amount w = .ok w') :
    amount ≤ w.book.balanceOf m.sender ∧
      w'.book = w.book.setBalance m.sender (w.book.balanceOf m.sender - amount) ∧
      held E w ≤ held E w' + amount := by
  simp only [withdraw, push, bind_eq_ok, require_eq_ok, mapError_eq_ok, pure_eq_ok] at h
  obtain ⟨-, hle, usdc, hpush, rfl⟩ := h
  exact ⟨hle, rfl, Pot.push_held hpush⟩

/-- Everything `reserve` checks. -/
structure ReserveGuard (E : Deployment τ) (m : Msg) (channelId : Bytes32)
    (client workerPayout : Address) (maxAmount deadline : ℕ) (sig : Bytes) (s : Storage) :
    Prop where
  live : m.timestamp < deadline
  signed : recover E (reserveDigest E channelId client workerPayout maxAmount deadline) sig =
    .ok client
  names : (s.channels channelId).client = 0 ∨
    (s.channels channelId).client = client ∧ (s.channels channelId).workerPayout = workerPayout
  rises : (s.channels channelId).reserved < maxAmount
  funded : maxAmount - (s.channels channelId).reserved ≤ s.balanceOf client

/-- The channel `reserve` leaves behind. -/
def Channel.raised (ch : Channel) (client workerPayout : Address) (maxAmount deadline : ℕ) :
    Channel :=
  { ch.opened client workerPayout deadline with
    reserved := maxAmount
    deadline := if (ch.opened client workerPayout deadline).deadline < deadline then deadline
      else (ch.opened client workerPayout deadline).deadline }

def lock (s : Storage) (channelId : Bytes32) (client workerPayout : Address)
    (maxAmount deadline : ℕ) : Storage :=
  (s.setBalance client
    (s.balanceOf client - (maxAmount - (s.channels channelId).reserved))).setChannel channelId
      ((s.channels channelId).raised client workerPayout maxAmount deadline)

@[simp] theorem Channel.opened_reserved (ch : Channel) (client workerPayout : Address)
    (deadline : ℕ) : (ch.opened client workerPayout deadline).reserved = ch.reserved := by
  unfold Channel.opened
  split <;> rfl

@[simp] theorem Channel.opened_paid (ch : Channel) (client workerPayout : Address)
    (deadline : ℕ) : (ch.opened client workerPayout deadline).paid = ch.paid := by
  unfold Channel.opened
  split <;> rfl

theorem reserve_eq_ok :
    reserve E m channelId client workerPayout maxAmount deadline sig s = .ok s' ↔
      ReserveGuard E m channelId client workerPayout maxAmount deadline sig s ∧
      lock s channelId client workerPayout maxAmount deadline = s' := by
  simp only [reserve, bind_eq_ok, require_eq_ok, pure_eq_ok, Channel.opened_reserved]
  constructor
  · rintro ⟨-, hlive, signer, hsig, -, rfl, -, hnames, -, hrise, -, hfund, rfl⟩
    exact ⟨⟨hlive, hsig, hnames, hrise, hfund⟩, rfl⟩
  · rintro ⟨g, rfl⟩
    exact ⟨⟨⟩, g.live, _, g.signed, ⟨⟩, rfl, ⟨⟩, g.names, ⟨⟩, g.rises, ⟨⟩, g.funded, rfl⟩

/-- Everything `redeem` checks. -/
structure RedeemGuard (E : Deployment τ) (channelId : Bytes32) (cumulative : ℕ)
    (metadataHash : Bytes32) (sig : Bytes) (s : Storage) : Prop where
  isOpen : (s.channels channelId).client ≠ 0
  rises : (s.channels channelId).paid < cumulative
  locked : cumulative ≤ (s.channels channelId).reserved
  signed : recover E (spendDigest E channelId (s.channels channelId).client cumulative
    metadataHash) sig = .ok (s.channels channelId).client

theorem redeem_ok (h : redeem E channelId cumulative metadataHash sig w = .ok w') :
    RedeemGuard E channelId cumulative metadataHash sig w.book ∧
      w'.book = w.book.setChannel channelId
        { w.book.channels channelId with paid := cumulative } ∧
      held E w ≤ held E w' + (cumulative - (w.book.channels channelId).paid) := by
  simp only [redeem, push, pushSome, bind_eq_ok, require_eq_ok, mul_eq_ok, mapError_eq_ok,
    pure_eq_ok] at h
  obtain ⟨-, hopen, -, hrise, -, hlock, signer, hsig, -, rfl, scaled, ⟨-, rfl⟩, usdc, hworker, usdc',
    hvault, rfl⟩ := h
  refine ⟨⟨hopen, hrise, hlock, hsig⟩, rfl, ?_⟩
  have hpaid := Pot.push_held hworker
  have hfee := feeOf_le (cumulative - (w.book.channels channelId).paid)
  have hshare := Pot.pushSome_held hvault
  simp only [held, feeOf] at *
  omega

theorem redeem_pays {usdc usdc' : τ}
    (g : RedeemGuard E channelId cumulative metadataHash sig w.book)
    (hscaled : (cumulative - (w.book.channels channelId).paid) * feeBps < 2 ^ 256)
    (hworker : push E (w.book.channels channelId).workerPayout
      (cumulative - (w.book.channels channelId).paid -
        feeOf (cumulative - (w.book.channels channelId).paid)) w.usdc = .ok usdc)
    (hvault : pushSome E E.feeVault (feeOf (cumulative - (w.book.channels channelId).paid)) usdc =
      .ok usdc') :
    redeem E channelId cumulative metadataHash sig w =
      .ok ⟨w.book.setChannel channelId { w.book.channels channelId with paid := cumulative },
        usdc'⟩ := by
  simp only [redeem, bind_eq_ok, require_eq_ok, mul_eq_ok, pure_eq_ok]
  exact ⟨⟨⟩, g.isOpen, ⟨⟩, g.rises, ⟨⟩, g.locked, _, g.signed, ⟨⟩, rfl, _, ⟨hscaled, rfl⟩, usdc, hworker,
    usdc', hvault, rfl⟩

/-- What a close gives back. -/
def Channel.unspent (ch : Channel) : ℕ := ch.reserved - ch.paid

def Channel.closed (ch : Channel) : Channel := { ch with reserved := ch.paid }

def unlock (s : Storage) (channelId : Bytes32) : Storage :=
  (s.setChannel channelId (s.channels channelId).closed).setBalance (s.channels channelId).client
    (s.balanceOf (s.channels channelId).client + (s.channels channelId).unspent)

theorem close_eq_ok :
    close m channelId s = .ok s' ↔
      (s.channels channelId).client ≠ 0 ∧ (s.channels channelId).deadline < m.timestamp ∧
      (s.channels channelId).paid ≤ (s.channels channelId).reserved ∧
      s.balanceOf (s.channels channelId).client + (s.channels channelId).unspent < 2 ^ 256 ∧
      unlock s channelId = s' := by
  simp only [close, bind_eq_ok, require_eq_ok, sub_eq_ok, add_eq_ok, pure_eq_ok]
  constructor
  · rintro ⟨-, hopen, -, hlate, unspent, ⟨hle, rfl⟩, balance, ⟨hlt, rfl⟩, rfl⟩
    exact ⟨hopen, hlate, hle, hlt, rfl⟩
  · rintro ⟨hopen, hlate, hle, hlt, rfl⟩
    exact ⟨⟨⟩, hopen, ⟨⟩, hlate, _, ⟨hle, rfl⟩, _, ⟨hlt, rfl⟩, rfl⟩

end Spec

end Rootmode.Channels
