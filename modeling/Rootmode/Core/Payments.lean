import Rootmode.Core.Crypto
import Rootmode.Lib.Text
import Rootmode.Lib.Checked

namespace Rootmode.Payments

open Lib Lib.Bytes Lib.Checked Lib.Text

inductive CoreError
  | invalid (message : String)
  | signature (message : String)
  deriving DecidableEq

def CoreError.text : CoreError → String
  | .invalid message => s!"invalid message: {message}"
  | .signature message => s!"signature: {message}"

/-- USDC has six decimals: an amount is a number of 1e-6 dollars. -/
abbrev Micros := ℕ

def domainName : String := "RootmodeChannels"

def potDomainName : String := "RootmodePot"

def word (h : Bytes32) : Bytes := bigEndian 32 h.toNat

def wordU64 (value : ℕ) : Bytes := bigEndian 32 value

def notAnAddress (address : Text) : CoreError :=
  let shown := address.str
  .invalid s!"not an address: {shown}"

def wordAddress (address : Text) : Except CoreError Bytes :=
  match Hex.decode (strip0x address) with
  | .error _ => .error (notAnAddress address)
  | .ok bytes =>
    if bytes.length = 20 then .ok (List.replicate 12 0 ++ bytes) else .error (notAnAddress address)

def not32Bytes (value : Text) : CoreError :=
  let shown := value.str
  .invalid s!"not 32 bytes: {shown}"

def wordBytes32 (value : Text) : Except CoreError Bytes :=
  match Hex.decode (strip0x value) with
  | .error _ => .error (not32Bytes value)
  | .ok bytes => if bytes.length = 32 then .ok bytes else .error (not32Bytes value)

/-- Which contract, on which chain, signatures are good for. -/
structure Domain where
  chainId : ℕ
  verifyingContract : Text
  deriving DecidableEq

variable (C : Crypto)

def Domain.separatorNamed (d : Domain) (name : String) : Except CoreError Bytes32 := do
  let contract ← wordAddress d.verifyingContract
  return C.keccak256 (word (C.keccak256 (ascii domainTypehash)) ++ word (C.keccak256 (ascii name)) ++
    word (C.keccak256 (ascii "1")) ++ wordU64 d.chainId ++ contract)

def digestOfNamed (d : Domain) (name : String) (structHash : Bytes32) : Except CoreError Bytes32 := do
  let separator ← d.separatorNamed C name
  return C.typedDigest separator structHash

/-- A session between one client and one worker: the key of a ledger entry. -/
def channelId (client worker salt : Text) : Text :=
  ofString "0x" ++ Hex.encode (word (C.keccak256
    (Hex.utf8 (lower client) ++ Hex.utf8 (lower worker) ++ Hex.utf8 salt)))

def addressText (a : Address) : Text := ofString "0x" ++ Hex.encode (bigEndian 20 a.toNat)

/-- The order of secp256k1. -/
def secp256k1n : ℕ :=
  0xFFFFFFFFFFFFFFFFFFFFFFFFFFFFFFFEBAAEDCE6AF48A03BBFD25E8CD0364141

/-- Wallets write 27 and 28 where the recovery id is 0 and 1. -/
def parity (v : ℕ) : Option Bool :=
  if v = 0 ∨ v = 27 then some false else if v = 1 ∨ v = 28 then some true else none

/-- The address that produced a 65-byte signature over `digest`, as the contract recovers it. -/
def recover (digest : Bytes32) (sigHex : Text) : Except CoreError Text :=
  match Hex.decode (strip0x sigHex) with
  | .error e =>
    let shown := e.text
    .error (.signature s!"bad signature: {shown}")
  | .ok bytes =>
    if bytes.length ≠ 65 then
      let length := bytes.length
      .error (.signature s!"a signature is 65 bytes, this is {length}")
    else
      let v := ofBigEndian (bytes.drop 64)
      let r := ofBigEndian (bytes.take 32)
      let s := ofBigEndian ((bytes.drop 32).take 32)
      match parity v with
      | none => .error (.signature s!"unexpected recovery byte {v}")
      | some odd =>
        if r = 0 ∨ secp256k1n ≤ r ∨ s = 0 ∨ secp256k1n ≤ s then
          .error (.signature "bad signature: signature error")
        else if secp256k1nHalf < s then
          .error (.signature
            "signature has a high-s value (malleable); the contract will reject it")
        else
          match C.recoverSigner digest odd r s with
          | none => .error (.signature "cannot recover a signer: signature error")
          | some signer => .ok (addressText signer)

/-- The earlier authorisation: cumulative spend on a channel, signed by the paying address. -/
structure SpendingAuth where
  channelId : Text
  client : Text
  cumulative : Micros
  metadataHash : Text
  sig : Option Text
  deriving DecidableEq

namespace SpendingAuth

variable (a : SpendingAuth)

def typehash : String :=
  "SpendingAuth(bytes32 channelId,address client,uint256 cumulative,bytes32 metadataHash)"

def digest (d : Domain) : Except CoreError Bytes32 := do
  let channel ← wordBytes32 a.channelId
  let client ← wordAddress a.client
  let metadata ← wordBytes32 a.metadataHash
  digestOfNamed C d domainName (C.keccak256
    (word (C.keccak256 (ascii typehash)) ++ channel ++ client ++ wordU64 a.cumulative ++ metadata))

def recover (d : Domain) : Except CoreError Text :=
  match a.sig with
  | none => .error (.signature "spending authorisation is unsigned")
  | some sig => do
    let digest ← a.digest C d
    Payments.recover C digest sig

/-- What the authorisation adds to `already`, once its signer, its rise and its ceiling are
checked. -/
def check (d : Domain) (already reserved : Micros) : Except CoreError Micros := do
  let signer ← a.recover C d
  let shown := signer.str
  let client := a.client.str
  let cumulative := a.cumulative
  require (eqIgnoreAsciiCase signer a.client)
    (.signature s!"authorisation signed by {shown}, not by {client}")
  require (already < cumulative)
    (.invalid s!"cumulative spend must rise: {cumulative} is not more than {already}")
  require (cumulative ≤ reserved)
    (.invalid s!"{cumulative} is beyond the {reserved} reserved for this session")
  return cumulative - already

end SpendingAuth

/-- What the worker posts: lock this much of the pot for one worker, until `deadline`. -/
structure ReserveTicket where
  client : Text
  workerPayout : Text
  maxAmount : Micros
  deadline : ℕ
  deriving DecidableEq

def ReserveTicket.typehash : String :=
  "ReserveTicket(address client,address workerPayout,uint256 maxAmount,uint64 deadline)"

def ReserveTicket.digest (t : ReserveTicket) (d : Domain) : Except CoreError Bytes32 := do
  let client ← wordAddress t.client
  let workerPayout ← wordAddress t.workerPayout
  digestOfNamed C d potDomainName (C.keccak256
    (word (C.keccak256 (ascii typehash)) ++ client ++ workerPayout ++ wordU64 t.maxAmount ++
      wordU64 t.deadline))

/-- What the app key signs after work: the total authorised for this worker so far. -/
structure SpendTicket where
  client : Text
  workerPayout : Text
  cumulative : Micros
  deadline : ℕ
  deriving DecidableEq

namespace SpendTicket

variable (t : SpendTicket)

def typehash : String :=
  "SpendTicket(address client,address workerPayout,uint256 cumulative,uint64 deadline)"

def digest (d : Domain) : Except CoreError Bytes32 := do
  let client ← wordAddress t.client
  let workerPayout ← wordAddress t.workerPayout
  digestOfNamed C d potDomainName (C.keccak256
    (word (C.keccak256 (ascii typehash)) ++ client ++ workerPayout ++ wordU64 t.cumulative ++
      wordU64 t.deadline))

def recover (d : Domain) (sig : Text) : Except CoreError Text := do
  let digest ← t.digest C d
  Payments.recover C digest sig

/-- The signer is the account's app key, and the ticket is not out of date. -/
def check (d : Domain) (sig appKey : Text) (now : ℕ) : Except CoreError PUnit := do
  let deadline := t.deadline
  require (now < deadline) (.invalid s!"spend ticket expired at {deadline}, it is now {now}")
  let signer ← t.recover C d sig
  let shown := signer.str
  let key := appKey.str
  require (eqIgnoreAsciiCase signer appKey)
    (.signature s!"ticket signed by {shown}, not by the account's app key {key}")

end SpendTicket

variable {C}

/-- Who signed is told by an address. -/
theorem addressText_of_recover {digest : Bytes32} {sig signer : Text}
    (h : recover C digest sig = .ok signer) : ∃ a, signer = addressText a := by
  unfold recover at h
  split at h
  · cases h
  · split at h
    · cases h
    · dsimp only at h
      split at h
      · cases h
      · split at h
        · cases h
        · split at h
          · cases h
          · split at h
            · cases h
            · next a _ =>
              cases h
              exact ⟨a, rfl⟩

/-- Who signed does not change: a ticket that passed is good until its deadline. -/
theorem SpendTicket.check_later {t : SpendTicket} {d : Domain} {sig appKey : Text} {then_ now : ℕ}
    (h : t.check C d sig appKey then_ = .ok ⟨⟩) (hlive : now < t.deadline) :
    t.check C d sig appKey now = .ok ⟨⟩ := by
  simp only [check, bind_eq_ok, require_eq_ok] at h ⊢
  obtain ⟨-, -, signer, hsigner, hkey⟩ := h
  exact ⟨⟨⟩, hlive, signer, hsigner, hkey⟩

/-- No ticket passes for a key that is not known yet. -/
theorem SpendTicket.check_ne_ok_of_no_key {t : SpendTicket} {d : Domain} {sig : Text} {now : ℕ}
    (h : t.check C d sig [] now = .ok ⟨⟩) : False := by
  simp only [check, SpendTicket.recover, bind_eq_ok, require_eq_ok] at h
  obtain ⟨-, -, signer, ⟨digest, -, hsigner⟩, hkey⟩ := h
  obtain ⟨a, rfl⟩ := addressText_of_recover hsigner
  rw [eqIgnoreAsciiCase_iff] at hkey
  cases hkey

end Rootmode.Payments
