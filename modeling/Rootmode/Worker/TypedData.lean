import Rootmode.Contracts.LocalChain
import Rootmode.Contracts.TypedData
import Rootmode.Worker.ChainView

namespace Rootmode.Worker.Chain

open Lib Lib.Bytes Lib.Checked Lib.Text Payments

/-- The two tickets an app key signs, as the node builds them. -/
inductive Ticket
  | reserve (t : ReserveTicket)
  | spend (t : SpendTicket)
  deriving DecidableEq

namespace Ticket

variable (C : Crypto) (d : Domain)

def typehash : Ticket → String
  | reserve _ => ReserveTicket.typehash
  | spend _ => SpendTicket.typehash

def client : Ticket → Text
  | reserve t => t.client
  | spend t => t.client

def workerPayout : Ticket → Text
  | reserve t => t.workerPayout
  | spend t => t.workerPayout

def amount : Ticket → ℕ
  | reserve t => t.maxAmount
  | spend t => t.cumulative

def deadline : Ticket → ℕ
  | reserve t => t.deadline
  | spend t => t.deadline

def digest : Ticket → Except CoreError Bytes32
  | reserve t => t.digest C d
  | spend t => t.digest C d

/-- The bytes of the last hash of `digest`. -/
def preimage (t : Ticket) : Except CoreError Bytes := do
  let client ← Payments.wordAddress t.client
  let workerPayout ← Payments.wordAddress t.workerPayout
  let structHash := C.keccak256 (word (C.keccak256 (ascii t.typehash)) ++ client ++ workerPayout ++
    wordU64 t.amount ++ wordU64 t.deadline)
  let separator ← d.separatorNamed C potDomainName
  return [0x19, 0x01] ++ bigEndian 32 separator.toNat ++ bigEndian 32 structHash.toNat

/-- What `digest` does for either ticket. -/
theorem digest_eq (t : Ticket) : t.digest C d = (do
    let client ← Payments.wordAddress t.client
    let workerPayout ← Payments.wordAddress t.workerPayout
    digestOfNamed C d potDomainName (C.keccak256 (word (C.keccak256 (ascii t.typehash)) ++ client ++
      workerPayout ++ wordU64 t.amount ++ wordU64 t.deadline))) := by
  cases t with
  | reserve t => rfl
  | spend t => rfl

/-- The pre-image is what `digest` hashes. -/
theorem digest_eq_map (t : Ticket) : t.digest C d = (t.preimage C d).map C.keccak256 := by
  rw [digest_eq, preimage]
  cases Payments.wordAddress t.client with
  | error e => rfl
  | ok client =>
    cases Payments.wordAddress t.workerPayout with
    | error e => rfl
    | ok workerPayout =>
      unfold digestOfNamed
      cases hseparator : d.separatorNamed C potDomainName with
      | error e => rfl
      | ok separator => rfl

/-- The two addresses are addresses. -/
structure Named (t : Ticket) : Prop where
  client : ∃ w, Payments.wordAddress t.client = .ok w
  workerPayout : ∃ w, Payments.wordAddress t.workerPayout = .ok w

/-- The numbers are machine words. -/
structure Sized (t : Ticket) : Prop where
  amount_lt : t.amount < 2 ^ 64
  deadline_lt : t.deadline < 2 ^ 64

def kind : Ticket → Pot.Kind
  | reserve _ => .reserve
  | spend _ => .spend

/-- What the contract reads off the ticket. -/
def read (t : Ticket) : Pot.Terms where
  kind := t.kind
  client := addressOf t.client
  workerPayout := addressOf t.workerPayout
  amount := t.amount
  deadline := t.deadline

variable {C d} {t t' : Ticket} {b : Bytes}

theorem typehash_kind (t : Ticket) : t.kind.typehash = t.typehash := by
  cases t with
  | reserve t => rfl
  | spend t => rfl

theorem Sized.read (h : t.Sized) : t.read.Sized where
  amount_lt := h.amount_lt.trans (by decide)
  deadline_lt := h.deadline_lt.trans (by decide)

/-- The node's pre-image is the contract's. -/
theorem preimage_of_named (ht : t.Named) {w : Bytes}
    (hd : Payments.wordAddress d.verifyingContract = .ok w) :
    t.preimage C d = .ok (t.read.preimage C d.chainId (addressOf d.verifyingContract)) := by
  obtain ⟨client, hclient⟩ := ht.client
  obtain ⟨payout, hpayout⟩ := ht.workerPayout
  obtain ⟨-, -, hclientWord⟩ := wordAddress_ok hclient
  obtain ⟨-, -, hpayoutWord⟩ := wordAddress_ok hpayout
  obtain ⟨-, -, hcontractWord⟩ := wordAddress_ok hd
  rw [hclientWord] at hclient
  rw [hpayoutWord] at hpayout
  rw [hcontractWord] at hd
  simp only [preimage, hclient, hpayout, Domain.separatorNamed, hd, bind, Except.bind, pure,
    Except.pure]
  simp only [Pot.Terms.preimage, Pot.Terms.structBytes, Pot.separatorBytes, abiEncode, typehash_kind,
    word, wordU64, potDomainName, Ticket.read, List.flatMap_cons, List.flatMap_nil, List.append_nil,
    List.append_assoc]

theorem named_of_preimage (h : t.preimage C d = .ok b) :
    t.Named ∧ ∃ w, Payments.wordAddress d.verifyingContract = .ok w := by
  simp only [preimage, Domain.separatorNamed, bind_eq_ok] at h
  obtain ⟨client, hclient, payout, hpayout, separator, ⟨contract, hcontract, -⟩, -⟩ := h
  exact ⟨⟨⟨client, hclient⟩, payout, hpayout⟩, contract, hcontract⟩

/-- One pre-image, one ticket for one contract on one chain, or a collision among what is hashed. -/
theorem preimage_injective {d' : Domain} (ht : t.Sized) (ht' : t'.Sized) (hd : d.chainId < 2 ^ 64)
    (hd' : d'.chainId < 2 ^ 64) (h : t.preimage C d = .ok b) (h' : t'.preimage C d' = .ok b) :
    (t.read = t'.read ∧ d.chainId = d'.chainId ∧
        addressOf d.verifyingContract = addressOf d'.verifyingContract) ∨
      Pot.Collides C (t.read.hashed C d.chainId (addressOf d.verifyingContract))
        (t'.read.hashed C d'.chainId (addressOf d'.verifyingContract)) := by
  obtain ⟨hnamed, w, hw⟩ := named_of_preimage h
  obtain ⟨hnamed', w', hw'⟩ := named_of_preimage h'
  rw [preimage_of_named hnamed hw] at h
  rw [preimage_of_named hnamed' hw'] at h'
  refine Pot.preimage_injective ht.read ht'.read (hd.trans (by decide)) (hd'.trans (by decide)) ?_
  exact Except.ok.inj (h.trans h'.symm)

end Ticket

section Recover

variable {C : Crypto} {τ : Type} {E : Pot.Deployment τ} {digest : Bytes32} {sig : Text}
  {bytes : Bytes} {a : Address}

/-- No key is recovered from a signature whose halves are not in the range of the curve's order. -/
def InRange (C : Crypto) : Prop := ∀ {digest odd r s a}, C.recoverSigner digest odd r s = some a →
  (0 < r ∧ r < secp256k1n) ∧ 0 < s ∧ s < secp256k1n

theorem getD_eq_iff {o : Option Address} (ha : a ≠ 0) : o.getD 0 = a ↔ o = some a := by
  cases o with
  | none => exact ⟨fun h => absurd h.symm ha, nofun⟩
  | some b => exact ⟨congrArg some, Option.some.inj⟩

theorem recoveryByte_eq_iff (v : ℕ) :
    ((if v < 27 then v + 27 else v) = 27 ↔ v = 0 ∨ v = 27) ∧
      ((if v < 27 then v + 27 else v) = 28 ↔ v = 1 ∨ v = 28) := by
  split <;> omega

/-- The precompile finds a signer for the four recovery bytes the node knows, and no other. -/
theorem ecrecover_eq_iff {v r s : ℕ} (ha : a ≠ 0) :
    C.ecrecover digest (if v < 27 then v + 27 else v) r s = a ↔
      ∃ odd, parity v = some odd ∧ C.recoverSigner digest odd r s = some a := by
  unfold parity Crypto.ecrecover
  simp only [recoveryByte_eq_iff]
  by_cases hfalse : v = 0 ∨ v = 27
  · rw [if_pos hfalse, if_pos hfalse, getD_eq_iff ha]
    exact ⟨fun h => ⟨false, rfl, h⟩, by rintro ⟨odd, hodd, h⟩; cases hodd; exact h⟩
  · by_cases htrue : v = 1 ∨ v = 28
    · rw [if_neg hfalse, if_neg hfalse, if_pos htrue, if_pos htrue, getD_eq_iff ha]
      exact ⟨fun h => ⟨true, rfl, h⟩, by rintro ⟨odd, hodd, h⟩; cases hodd; exact h⟩
    · rw [if_neg hfalse, if_neg hfalse, if_neg htrue, if_neg htrue]
      exact ⟨fun h => absurd h.symm ha, nofun⟩

theorem secp256k1nHalf_lt : secp256k1nHalf < secp256k1n := by decide

/-- What the node recovers a signer by. -/
theorem recover_eq_ok (hbytes : Hex.decode (strip0x sig) = .ok bytes) :
    Payments.recover C digest sig = .ok (addressText a) ↔
      bytes.length = 65 ∧
      ∃ odd, parity (ofBigEndian (bytes.drop 64)) = some odd ∧
        (0 < ofBigEndian (bytes.take 32) ∧ ofBigEndian (bytes.take 32) < secp256k1n) ∧
        (0 < ofBigEndian ((bytes.drop 32).take 32) ∧
          ofBigEndian ((bytes.drop 32).take 32) ≤ secp256k1nHalf) ∧
        C.recoverSigner digest odd (ofBigEndian (bytes.take 32))
          (ofBigEndian ((bytes.drop 32).take 32)) = some a := by
  unfold Payments.recover
  rw [hbytes]
  dsimp only
  generalize ofBigEndian (bytes.take 32) = r
  generalize ofBigEndian ((bytes.drop 32).take 32) = s
  by_cases hlength : bytes.length = 65
  · rw [if_neg (not_ne_iff.mpr hlength)]
    cases parity (ofBigEndian (bytes.drop 64)) with
    | none => exact ⟨nofun, by rintro ⟨-, odd, hodd, -⟩; cases hodd⟩
    | some odd =>
      dsimp only
      by_cases hout : r = 0 ∨ secp256k1n ≤ r ∨ s = 0 ∨ secp256k1n ≤ s
      · rw [if_pos hout]
        refine ⟨nofun, ?_⟩
        rintro ⟨-, -, -, hr, hs, -⟩
        have := secp256k1nHalf_lt
        omega
      · rw [if_neg hout]
        by_cases hhigh : secp256k1nHalf < s
        · rw [if_pos hhigh]
          refine ⟨nofun, ?_⟩
          rintro ⟨-, -, -, -, hs, -⟩
          exact absurd hs.2 (not_le.mpr hhigh)
        · rw [if_neg hhigh]
          cases hsigner : C.recoverSigner digest odd r s with
          | none =>
            refine ⟨nofun, ?_⟩
            rintro ⟨-, odd', hodd, -, -, hsome⟩
            cases hodd
            cases hsigner.symm.trans hsome
          | some signer =>
            constructor
            · intro h
              cases addressText_injective (Except.ok.inj h)
              refine ⟨hlength, odd, rfl, ?_, ?_, hsigner⟩
              · omega
              · omega
            · rintro ⟨-, odd', hodd, -, -, hsome⟩
              cases hodd
              cases hsigner.symm.trans hsome
              rfl
  · rw [if_pos hlength]
    exact ⟨nofun, fun h => absurd h.1 hlength⟩

/-- The node recovers a signer that is not the zero address exactly where the contract does. -/
theorem recover_iff (hE : E.crypto = C) (hC : InRange C)
    (hbytes : Hex.decode (strip0x sig) = .ok bytes) :
    Payments.recover C digest sig = .ok (addressText a) ∧ a ≠ 0 ↔
      Pot.recover E digest bytes = .ok a := by
  rw [recover_eq_ok hbytes]
  simp only [Pot.recover, bind_eq_ok, require_eq_ok, Pot.pure_eq_ok, hE]
  constructor
  · rintro ⟨⟨hlength, odd, hodd, hr, hs, hsigner⟩, ha⟩
    have hrec := (ecrecover_eq_iff ha).mpr ⟨odd, hodd, hsigner⟩
    rw [hrec]
    exact ⟨⟨⟩, hlength, ⟨⟩, hs.2, ⟨⟩, ha, rfl⟩
  · rintro ⟨-, hlength, -, hhalf, -, hne, hrec⟩
    have ha : a ≠ 0 := hrec ▸ hne
    obtain ⟨odd, hodd, hsigner⟩ := (ecrecover_eq_iff ha).mp hrec
    obtain ⟨hr, hs, -⟩ := hC hsigner
    exact ⟨⟨hlength, odd, hodd, hr, ⟨hs, hhalf⟩, hsigner⟩, ha⟩

end Recover

section Parity

variable {C : Crypto} {τ : Type} {E : Pot.Deployment τ} {d : Domain} {t : Ticket}

theorem Serves.self (hd : Serves E C d) : addressOf d.verifyingContract = E.self := by
  obtain ⟨-, -, hword⟩ := wordAddress_ok hd.contract
  exact (BitVec.eq_of_toNat_eq (bigEndian_injective (by have := E.self.isLt; omega)
    (by have := (addressOf d.verifyingContract).isLt; omega) hword)).symm

theorem preimage_of_serves (hd : Serves E C d) (ht : t.Named) :
    t.preimage C d = .ok (t.read.preimage C E.chainId E.self) := by
  rw [Ticket.preimage_of_named ht hd.contract, hd.chainId, hd.self]

/-- Node and contract sign and check the same bytes: the pre-images agree, no two tickets or domains
share one unless the hash collides on what they hash, and whoever the one recovers from a signature,
if not the zero address, the other does. -/
theorem typed_data_parity (hC : InRange C) :
    (∀ {E : Pot.Deployment τ} {d : Domain} {t : Ticket}, Serves E C d → t.Named →
      t.preimage C d = .ok (t.read.preimage C E.chainId E.self) ∧
      t.digest C d = .ok (C.keccak256 (t.read.preimage C E.chainId E.self)) ∧
      Pot.ticketDigest E t.read.kind.typehash t.read.client t.read.workerPayout t.read.amount
        t.read.deadline = C.keccak256 (t.read.preimage C E.chainId E.self)) ∧
    (∀ {d d' : Domain} {t t' : Ticket} {b : Bytes}, t.Sized → t'.Sized → d.chainId < 2 ^ 64 →
      d'.chainId < 2 ^ 64 → t.preimage C d = .ok b → t'.preimage C d' = .ok b →
      (t.read = t'.read ∧ d.chainId = d'.chainId ∧
          addressOf d.verifyingContract = addressOf d'.verifyingContract) ∨
        Pot.Collides C (t.read.hashed C d.chainId (addressOf d.verifyingContract))
          (t'.read.hashed C d'.chainId (addressOf d'.verifyingContract))) ∧
    ∀ {E : Pot.Deployment τ} {digest : Bytes32} {sig : Text} {bytes : Bytes} {a : Address},
      E.crypto = C → Hex.decode (strip0x sig) = .ok bytes →
      (Payments.recover C digest sig = .ok (addressText a) ∧ a ≠ 0 ↔
        Pot.recover E digest bytes = .ok a) := by
  refine ⟨?_, Ticket.preimage_injective, fun hE => recover_iff hE hC⟩
  intro E d t hd ht
  have hpreimage := preimage_of_serves hd ht
  refine ⟨hpreimage, ?_, ?_⟩
  · rw [Ticket.digest_eq_map, hpreimage]
    rfl
  · rw [Pot.ticketDigest_eq, hd.crypto]

end Parity

section Local

/-- The transparent signatures of the local chain, with halves in the range of the curve only. -/
def curve : Crypto where
  keccak256 := LocalChain.hash
  recoverSigner digest odd r s :=
    if (0 < r ∧ r < secp256k1n) ∧ 0 < s ∧ s < secp256k1n then LocalChain.recoverSigner digest odd r s
    else none

theorem curve_inRange : InRange curve := by
  intro digest odd r s a h
  simp only [curve] at h
  split at h
  · next hrange => exact hrange
  · cases h

def deployment : Pot.Deployment MockUsdc.Token := { LocalChain.deployment with crypto := curve }

def domain : Domain := ⟨31337, addressText LocalChain.pot⟩

theorem deployment_serves : Serves deployment curve domain :=
  ⟨rfl, rfl, wordAddress_addressText _⟩

/-- An address without its `0x`. -/
def bareText (a : Address) : Text := Hex.encode (bigEndian 20 a.toNat)

def ticket (client : Text) : Ticket :=
  .spend ⟨client, addressText LocalChain.worker, 250_000, 1_003_600⟩

theorem strip0x_bareText (a : Address) : strip0x (bareText a) = strip0x (addressText a) := by
  rw [addressText, strip0x_0x, bareText]
  rcases Hex.strip0x_cases (Hex.encode (bigEndian 20 a.toNat)) with hsame | hprefix
  · exact hsame
  · exact absurd hprefix (Hex.encode_ne_0x _ _)

theorem wordAddress_bareText (a : Address) :
    Payments.wordAddress (bareText a) = .ok (bigEndian 32 a.toNat) := by
  have hfull := wordAddress_addressText a
  unfold Payments.wordAddress at hfull ⊢
  rw [addressText, strip0x_0x, Hex.decode_encode] at hfull
  rw [strip0x_bareText, addressText, strip0x_0x, Hex.decode_encode]
  dsimp only at hfull ⊢
  split at hfull
  · next hlength => rw [if_pos hlength, Except.ok.inj hfull]
  · cases hfull

theorem ticket_named {client : Text} (h : ∃ w, Payments.wordAddress client = .ok w) :
    (ticket client).Named where
  client := h
  workerPayout := ⟨_, wordAddress_addressText _⟩

theorem decode_signature (b : Bytes) :
    Hex.decode (strip0x (ofString "0x" ++ Hex.encode b)) = .ok b := by
  rw [strip0x_0x, Hex.decode_encode]

/-- What the app key signs, the node reads as signed by it. -/
theorem recover_sign (digest : Bytes32) :
    Payments.recover curve digest
      (ofString "0x" ++ Hex.encode (LocalChain.sign LocalChain.app digest)) =
        .ok (addressText LocalChain.app) := by
  obtain ⟨hr, hs, hv⟩ := LocalChain.sign_parts LocalChain.app digest
  rw [recover_eq_ok (decode_signature _), hr, hs, hv]
  have hmod : digest.toNat % 2 ^ 128 < 2 ^ 128 := Nat.mod_lt _ (Nat.two_pow_pos 128)
  have hhalf : 2 ^ 128 ≤ secp256k1nHalf := by decide
  have hlow : 0 < digest.toNat % 2 ^ 128 + 1 ∧ digest.toNat % 2 ^ 128 + 1 ≤ secp256k1nHalf := by
    omega
  have happ : 0 < LocalChain.app.toNat ∧ LocalChain.app.toNat < secp256k1n := by decide
  refine ⟨LocalChain.length_sign _ _, false, rfl, happ, hlow, ?_⟩
  have hrange : (0 < LocalChain.app.toNat ∧ LocalChain.app.toNat < secp256k1n) ∧
      0 < digest.toNat % 2 ^ 128 + 1 ∧ digest.toNat % 2 ^ 128 + 1 < secp256k1n :=
    ⟨happ, hlow.1, hlow.2.trans_lt secp256k1nHalf_lt⟩
  exact (if_pos hrange).trans (LocalChain.recoverSigner_sign _ _)

/-- A ticket of the local client, and its app key's signature. -/
theorem typed_data_parity_local :
    (ticket (addressText LocalChain.client)).preimage curve domain =
      .ok ((ticket (addressText LocalChain.client)).read.preimage curve deployment.chainId
        deployment.self) ∧
    ∀ digest, Pot.recover deployment digest (LocalChain.sign LocalChain.app digest) =
      .ok LocalChain.app := by
  obtain ⟨hpreimage, -, hrecover⟩ := @typed_data_parity curve MockUsdc.Token curve_inRange
  refine ⟨(hpreimage deployment_serves (ticket_named ⟨_, wordAddress_addressText _⟩)).1, ?_⟩
  intro digest
  exact (hrecover rfl (decode_signature _)).mp ⟨recover_sign digest, LocalChain.app_ne_zero⟩

/-- A signature that is the zero address's, if addresses are read off `r`. -/
def zeroSig : Bytes := bigEndian 32 (2 ^ 160) ++ bigEndian 32 1 ++ [27]

theorem recover_zeroSig :
    Payments.recover curve 0 (ofString "0x" ++ Hex.encode zeroSig) = .ok (addressText 0) := by
  rw [recover_eq_ok (decode_signature _)]
  exact ⟨by decide, false, by decide, by decide, by decide,
    by decide⟩

/-- Two tickets that write one address in two ways share their pre-image, and where a signature
belongs to the zero address the node finds its signer and the contract does not. -/
theorem typed_data_not_parity :
    (∃ t t' : Ticket, t ≠ t' ∧ ∃ b, t.preimage curve domain = .ok b ∧
      t'.preimage curve domain = .ok b) ∧
    ∃ digest sig bytes, Hex.decode (strip0x sig) = .ok bytes ∧ bytes.length = 65 ∧
      Payments.recover curve digest sig = .ok (addressText 0) ∧
        ∀ a, Pot.recover deployment digest bytes ≠ .ok a := by
  refine ⟨⟨ticket (bareText LocalChain.client), ticket (addressText LocalChain.client), ?_, ?_⟩, ?_⟩
  · decide
  · have hbare : Payments.wordAddress (bareText LocalChain.client) =
        Payments.wordAddress (addressText LocalChain.client) := by
      rw [wordAddress_bareText, wordAddress_addressText]
    have hsame : (ticket (bareText LocalChain.client)).preimage curve domain =
        (ticket (addressText LocalChain.client)).preimage curve domain := by
      simp only [Ticket.preimage, ticket, Ticket.client, Ticket.workerPayout, Ticket.typehash,
        Ticket.amount, Ticket.deadline, hbare]
    have hfull := preimage_of_serves deployment_serves
      (ticket_named ⟨_, wordAddress_addressText LocalChain.client⟩)
    exact ⟨_, hsame.trans hfull, hfull⟩
  · refine ⟨0, _, zeroSig, decode_signature _, by decide, recover_zeroSig, ?_⟩
    intro a ha
    obtain ⟨hsigner, hne⟩ := (recover_iff rfl curve_inRange (decode_signature _)).mpr ha
    exact hne (addressText_injective (Except.ok.inj (hsigner.symm.trans recover_zeroSig)))

end Local

end Rootmode.Worker.Chain
