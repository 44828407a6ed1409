import Rootmode.Contracts.MockUsdc
import Rootmode.Contracts.PotRuns

namespace Rootmode.LocalChain

open Lib Lib.Bytes Lib.Transition Pot

/-- Stands in for Keccak-256 where runs are evaluated. -/
def hash (b : Bytes) : Bytes32 := BitVec.ofNat 256 (b.foldl (fun n d => 257 * n + d.toNat + 1) 0)

/-- Transparent signatures, for local runs: `r` is the signer and `s` the low half of the digest. -/
def recoverSigner (digest : Bytes32) (odd : Bool) (r s : ℕ) : Option Address :=
  if odd = false ∧ s = digest.toNat % 2 ^ 128 + 1 then some (BitVec.ofNat 160 r) else none

def crypto : Crypto where
  keccak256 := hash
  recoverSigner := recoverSigner

def sign (signer : Address) (digest : Bytes32) : Bytes :=
  bigEndian 32 signer.toNat ++ (bigEndian 32 (digest.toNat % 2 ^ 128 + 1) ++ [27])

theorem length_sign (signer : Address) (digest : Bytes32) : (sign signer digest).length = 65 := by
  simp [sign]

variable {τ : Type} {E : Deployment τ}

/-- The three parts of a signature read back. -/
theorem sign_parts (signer : Address) (digest : Bytes32) :
    ofBigEndian ((sign signer digest).take 32) = signer.toNat ∧
    ofBigEndian (((sign signer digest).drop 32).take 32) = digest.toNat % 2 ^ 128 + 1 ∧
    ofBigEndian ((sign signer digest).drop 64) = 27 := by
  have hsigner := signer.isLt
  refine ⟨?_, ?_, ?_⟩
  · rw [sign, List.take_left' (length_bigEndian _ _), ofBigEndian_bigEndian, Nat.mod_eq_of_lt]
    omega
  · rw [sign, List.drop_left' (length_bigEndian _ _), List.take_left' (length_bigEndian _ _),
      ofBigEndian_bigEndian, Nat.mod_eq_of_lt]
    omega
  · rw [sign, ← List.append_assoc, List.drop_left' (by simp)]
    rfl

theorem recoverSigner_sign (signer : Address) (digest : Bytes32) :
    recoverSigner digest false signer.toNat (digest.toNat % 2 ^ 128 + 1) = some signer := by
  simp [recoverSigner]

/-- Every key can sign for itself. -/
theorem recover_sign (hE : E.crypto = crypto) {signer : Address} (h : signer ≠ 0)
    (digest : Bytes32) : recover E digest (sign signer digest) = .ok signer := by
  obtain ⟨hr, hs, hv⟩ := sign_parts signer digest
  have hsigner : E.crypto.ecrecover digest 27 signer.toNat (digest.toNat % 2 ^ 128 + 1) =
      signer := by
    rw [hE, Crypto.ecrecover, if_pos rfl]
    exact congrArg (·.getD 0) (recoverSigner_sign signer digest)
  simp only [recover, Checked.bind_eq_ok, Checked.require_eq_ok, pure_eq_ok, hr, hs, hv]
  refine ⟨⟨⟩, length_sign _ _, ⟨⟩, ?_, ⟨⟩, hsigner.symm ▸ h, hsigner⟩
  unfold secp256k1nHalf
  omega

/-- The addresses and bounds of the contract's own test setup. -/
def vault : Address := 0xFEE
def worker : Address := 0xB0B
def client : Address := 0xA11CE
def app : Address := 0xA22
theorem app_ne_zero : app ≠ 0 := by decide

def usdc : Address := 0x5DC
def pot : Address := 0x907

def maxJob : ℕ := 500_000
def maxDay : ℕ := 20_000_000

def deployment : Deployment MockUsdc.Token where
  crypto := crypto
  token := MockUsdc.erc20 crypto 31337 usdc
  self := pot
  feeVault := vault
  grace := 900
  chainId := 31337

/-- The client holds a hundred dollars and lets the pot take any of it. -/
def start : Chain MockUsdc.Token where
  now := 1_000_000
  world :=
    { pot := {}
      usdc := MockUsdc.approve ((MockUsdc.mint MockUsdc.empty client 100_000_000).getD MockUsdc.empty)
        client pot (2 ^ 256 - 1) }

theorem start_genesis : start.Genesis := rfl

def reserveTicket (payout : Address) (maxAmount deadline : ℕ) : Call :=
  .reserve client payout maxAmount deadline
    (sign app (ticketDigest deployment reserveTypehash client payout maxAmount deadline))

def spendTicket (payout : Address) (cumulative deadline : ℕ) : Call :=
  .settle client payout cumulative deadline
    (sign app (ticketDigest deployment ticketTypehash client payout cumulative deadline))

/-- The checks of a reserve of the client's, its signature apart. -/
def Lockable (s : Storage) (m : Msg) (payout : Address) (maxAmount deadline : ℕ) : Prop :=
  (maxAmount < 2 ^ 256 ∧ deadline < 2 ^ 64 ∧ m.timestamp < deadline) ∧
  (s.accounts client).appKey = app ∧
  ((s.channels client payout).appKey = 0 ∨ (s.channels client payout).appKey = app) ∧
  (s.channels client payout).reserved < maxAmount ∧
  maxAmount - (s.channels client payout).reserved ≤ (s.accounts client).balance

instance (s : Storage) (m : Msg) (payout : Address) (maxAmount deadline : ℕ) :
    Decidable (Lockable s m payout maxAmount deadline) :=
  inferInstanceAs (Decidable (_ ∧ _))

theorem exec_reserveTicket {m : Msg} {payout : Address} {maxAmount deadline : ℕ}
    {w : World MockUsdc.Token} (h : Lockable w.pot m payout maxAmount deadline) :
    exec deployment m (reserveTicket payout maxAmount deadline) w =
      .ok ⟨lock w.pot client payout maxAmount deadline, w.usdc⟩ := by
  obtain ⟨⟨hamount, hdeadline, hlive⟩, hkey, hsame, hrise, hfund⟩ := h
  have g : ReserveGuard deployment m client payout maxAmount deadline
      (sign app (ticketDigest deployment reserveTypehash client payout maxAmount deadline))
      w.pot := by
    refine ⟨hlive, ?_, ?_, ?_, hrise, hfund⟩
    · rw [hkey]
      exact app_ne_zero
    · rw [hkey]
      exact recover_sign rfl app_ne_zero _
    · rw [hkey]
      exact hsame
  rw [exec_eq_ok, reserveTicket, run]
  refine ⟨⟨hamount, hdeadline, (length_sign _ _).le⟩, ?_⟩
  rw [reserve_eq_ok.mpr ⟨g, rfl⟩]
  rfl

/-- The checks of a spend ticket of the client's, its signature apart. -/
def Spendable (s : Storage) (m : Msg) (payout : Address) (cumulative deadline : ℕ) : Prop :=
  (cumulative < 2 ^ 256 ∧ deadline < 2 ^ 64 ∧ m.timestamp ≤ deadline) ∧
  (s.channels client payout).appKey = app ∧
  (s.channels client payout).earned < cumulative ∧
  cumulative ≤ (s.channels client payout).reserved ∧
  cumulative - (s.channels client payout).earned ≤ (s.channels client payout).maxPerJob ∧
  ((s.accounts client).rolled m.timestamp).spentToday +
    (cumulative - (s.channels client payout).earned) < 2 ^ 256 ∧
  (0 < (s.channels client payout).maxPerDay →
    ((s.accounts client).rolled m.timestamp).spentToday +
      (cumulative - (s.channels client payout).earned) ≤ (s.channels client payout).maxPerDay)

instance (s : Storage) (m : Msg) (payout : Address) (cumulative deadline : ℕ) :
    Decidable (Spendable s m payout cumulative deadline) :=
  inferInstanceAs (Decidable (_ ∧ _))

theorem exec_spendTicket {m : Msg} {payout : Address} {cumulative deadline : ℕ}
    {w w' : World MockUsdc.Token} (h : Spendable w.pot m payout cumulative deadline)
    (hpay : pay deployment client payout ⟨recognized m w.pot client payout cumulative, w.usdc⟩ =
      .ok w') :
    exec deployment m (spendTicket payout cumulative deadline) w = .ok w' := by
  obtain ⟨⟨hamount, hdeadline, hlive⟩, hkey, hrise, hlock, hjob, hfits, hday⟩ := h
  have g : RecognizeGuard deployment m client payout cumulative deadline
      (sign app (ticketDigest deployment ticketTypehash client payout cumulative deadline))
      w.pot := by
    refine ⟨?_, hlive, hrise, hlock, ?_, hjob, ?_, hday, hfits, ?_⟩
    · rw [hkey]
      exact app_ne_zero
    · omega
    · intro _
      omega
    · rw [hkey]
      exact recover_sign rfl app_ne_zero _
  rw [exec_eq_ok, spendTicket, run]
  exact ⟨⟨hamount, hdeadline, (length_sign _ _).le⟩, settle_eq_ok.mpr ⟨g, hpay⟩⟩

/-- The chain after the client deposited all it has. -/
def funded (maxPerDay : ℕ) : Chain MockUsdc.Token :=
  start.after deployment ⟨client, 1_000_000⟩ (.deposit 100_000_000 maxJob maxPerDay app)

/-- The chain after a reserve ticket of the client's went through. -/
def reserved (s : Chain MockUsdc.Token) (m : Msg) (payout : Address) (maxAmount deadline : ℕ) :
    Chain MockUsdc.Token :=
  ⟨m.timestamp, lock s.world.pot client payout maxAmount deadline, s.world.usdc⟩

/-- The chain after a spend ticket of the client's was paid. -/
def settled (s : Chain MockUsdc.Token) (m : Msg) (payout : Address) (cumulative : ℕ) :
    Chain MockUsdc.Token where
  now := m.timestamp
  world :=
    match pay deployment client payout
      ⟨recognized m s.world.pot client payout cumulative, s.world.usdc⟩ with
    | .ok w => w
    | .error _ => s.world

variable {s : Chain MockUsdc.Token} {m : Msg} {payout : Address} {maxAmount cumulative deadline : ℕ}

theorem funded_runs (maxPerDay : ℕ) : Runs (Step deployment) start (funded maxPerDay) :=
  .single (.after (.deposit 100_000_000 maxJob maxPerDay app) le_rfl (by decide))

theorem step_reserved (h : Lockable s.world.pot m payout maxAmount deadline)
    (hnow : s.now ≤ m.timestamp) (hm : m.sender ≠ pot) :
    Step deployment s (.call m (reserveTicket payout maxAmount deadline))
      (reserved s m payout maxAmount deadline) :=
  .call hnow hm (exec_reserveTicket h)

theorem exec_settled (deadline : ℕ) (h : Spendable s.world.pot m payout cumulative deadline)
    (hpay : (pay deployment client payout
      ⟨recognized m s.world.pot client payout cumulative, s.world.usdc⟩).isOk = true) :
    exec deployment m (spendTicket payout cumulative deadline) s.world =
      .ok (settled s m payout cumulative).world := by
  refine exec_spendTicket h ?_
  unfold settled
  cases hw : pay deployment client payout
      ⟨recognized m s.world.pot client payout cumulative, s.world.usdc⟩ with
  | ok w => rfl
  | error e => simp [hw, Except.isOk, Except.toBool] at hpay

theorem step_settled (deadline : ℕ) (h : Spendable s.world.pot m payout cumulative deadline)
    (hpay : (pay deployment client payout
      ⟨recognized m s.world.pot client payout cumulative, s.world.usdc⟩).isOk = true)
    (hnow : s.now ≤ m.timestamp) (hm : m.sender ≠ pot) :
    Step deployment s (.call m (spendTicket payout cumulative deadline))
      (settled s m payout cumulative) :=
  .call hnow hm (exec_settled deadline h hpay)

end Rootmode.LocalChain
