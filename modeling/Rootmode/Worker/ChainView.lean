import Rootmode.Worker.Chain
import Rootmode.Contracts.Ranges

namespace Rootmode.Worker.Chain

open Lib Lib.Bytes Lib.Checked Lib.Text Payments

/-- The storage words of a channel. -/
def words (ch : Pot.Channel) : List ℕ :=
  [ch.reserved, ch.paid, ch.deadline, ch.closeAt, ch.appKey.toNat, ch.earned, ch.maxPerJob,
    ch.maxPerDay]

/-- What the contract's getter answers for a channel. -/
def returnData (ch : Pot.Channel) : Text := ofString "0x" ++ Hex.encode (abiEncode (words ch))

/-- A word the node reads as a machine word: zero when it is wider. -/
def clip (n : ℕ) : ℕ := if n < 2 ^ 64 then n else 0

/-- The state the node reads off a channel that is not closing. -/
def stateOf (ch : Pot.Channel) : ChannelState where
  remaining := clip ch.reserved - clip ch.earned
  reserved := clip ch.reserved
  earned := clip ch.earned
  maxPerJob := clip ch.maxPerJob
  appKey := addressText ch.appKey

@[simp] theorem trimStart0x_ofString_encode (b : Bytes) :
    trimStart0x (ofString "0x" ++ Hex.encode b) = Hex.encode b :=
  Hex.trimStart0x_of_decode (Hex.decode_encode b)

theorem length_abiEncode (ws : List ℕ) : (abiEncode ws).length = 32 * ws.length := by
  induction ws with
  | nil => rfl
  | cons n ws ih =>
    simp only [abiEncode, List.flatMap_cons, List.length_append, length_bigEndian,
      List.length_cons] at *
    omega

/-- A word's worth of the reply is that word. -/
theorem slice_word {ws : List ℕ} {i n : ℕ} (h : ws[i]? = some n) :
    slice (Hex.encode (abiEncode ws)) (64 * i) (64 * (i + 1)) = Hex.encode (bigEndian 32 n) := by
  have hdrop : 64 * i = 2 * (32 * i) := by omega
  have htake : 64 * (i + 1) - 64 * i = 2 * 32 := by omega
  rw [slice, htake, hdrop, Hex.drop_encode, Hex.take_encode,
    abiEncode, take_drop_flatMap (length_bigEndian 32) h]

theorem readU64_word {n : ℕ} (h : n < 2 ^ 256) :
    readU64 (Hex.encode (bigEndian 32 n)) = clip n := by
  rw [readU64, Hex.parse_encode, ofBigEndian_bigEndian, Nat.mod_eq_of_lt (by omega), clip]

theorem appKey_word {ws : List ℕ} {a : Address} (h : ws[4]? = some a.toNat) :
    slice (Hex.encode (abiEncode ws)) (64 * 4 + 24) (64 * 5) =
      Hex.encode (bigEndian 20 a.toNat) := by
  have hword := slice_word h
  have hsplit : bigEndian 32 a.toNat = List.replicate 12 0 ++ bigEndian 20 a.toNat :=
    bigEndian_add 12 20 (by have := a.isLt; omega)
  have hpart : slice (Hex.encode (abiEncode ws)) (64 * 4 + 24) (64 * 5) =
      (slice (Hex.encode (abiEncode ws)) (64 * 4) (64 * (4 + 1))).drop 24 := by
    rw [slice, slice, List.drop_take, List.drop_drop]
  rw [hpart, hword, hsplit, show (24 : ℕ) = 2 * 12 from rfl, Hex.drop_encode,
    List.drop_left' (by simp)]

/-- The node reads back what the contract stores, and turns down a channel that is closing. -/
theorem decodeChannel_returnData {ch : Pot.Channel} (h : ch.Typed) :
    decodeChannel (returnData ch) =
      if ch.closeAt = 0 then .ok (stateOf ch)
      else .error (.rejected "this client is closing the channel; unused lock is returning") := by
  have hlength : (Hex.encode (abiEncode (words ch))).length = 64 * 8 := by
    rw [Hex.length_encode, length_abiEncode]
    rfl
  have hreserved : readU64 (slice (Hex.encode (abiEncode (words ch))) 0 64) = clip ch.reserved :=
    (congrArg readU64 (slice_word (i := 0) rfl)).trans (readU64_word h.reserved_lt)
  have hcloseAt : readU64 (slice (Hex.encode (abiEncode (words ch))) (64 * 3) (64 * 4)) =
      clip ch.closeAt :=
    (congrArg readU64 (slice_word (i := 3) rfl)).trans
      (readU64_word (h.closeAt_lt.trans (by omega)))
  have hearned : readU64 (slice (Hex.encode (abiEncode (words ch))) (64 * 5) (64 * 6)) =
      clip ch.earned :=
    (congrArg readU64 (slice_word (i := 5) rfl)).trans (readU64_word h.earned_lt)
  have hmaxPerJob : readU64 (slice (Hex.encode (abiEncode (words ch))) (64 * 6) (64 * 7)) =
      clip ch.maxPerJob :=
    (congrArg readU64 (slice_word (i := 6) rfl)).trans (readU64_word h.maxPerJob_lt)
  have hkey := @appKey_word (words ch) ch.appKey rfl
  have hclose : clip ch.closeAt = ch.closeAt := if_pos h.closeAt_lt
  simp only [decodeChannel, returnData, trimStart0x_ofString_encode, hlength, hreserved, hcloseAt,
    hearned, hmaxPerJob, hkey, hclose]
  by_cases hzero : ch.closeAt = 0
  · simp [hzero, require, bind, Except.bind, pure, Except.pure, stateOf, addressText]
  · simp [hzero, require, bind, Except.bind]

section Addresses

/-- The address twenty bytes stand for. -/
def ofBytes (b : Bytes) : Address := BitVec.ofNat 160 (ofBigEndian b)

theorem padded_ofBytes {b : Bytes} (h : b.length = 20) :
    List.replicate 12 0 ++ b = bigEndian 32 (ofBytes b).toNat := by
  have hlt : ofBigEndian b < 256 ^ 20 := h ▸ ofBigEndian_lt b
  have hsplit := bigEndian_add 12 20 hlt
  have hback := bigEndian_ofBigEndian b
  rw [h] at hback
  rw [hback] at hsplit
  rw [ofBytes, BitVec.toNat_ofNat, Nat.mod_eq_of_lt (by omega), hsplit]

/-- The address a text stands for. -/
def addressOf (t : Text) : Address :=
  match Hex.decode (strip0x t) with
  | .ok b => ofBytes b
  | .error _ => 0

theorem wordAddress_ok {t : Text} {w : Bytes} (h : Payments.wordAddress t = .ok w) :
    ∃ b, Hex.decode (strip0x t) = .ok b ∧ w = bigEndian 32 (addressOf t).toNat := by
  unfold Payments.wordAddress at h
  split at h
  · cases h
  · next b hb =>
    split at h
    · next hlength =>
      cases h
      rw [addressOf, hb]
      exact ⟨b, rfl, padded_ofBytes hlength⟩
    · cases h

/-- Texts that name an address and are equal up to case name the same. -/
theorem addressOf_congr {t u : Text} {w w' : Bytes} (h : eqIgnoreAsciiCase t u = true)
    (ht : Payments.wordAddress t = .ok w) (hu : Payments.wordAddress u = .ok w') :
    addressOf t = addressOf u := by
  obtain ⟨b, hb, -⟩ := wordAddress_ok ht
  obtain ⟨c, hc, -⟩ := wordAddress_ok hu
  rw [addressOf, addressOf, hb, hc, Hex.decode_eq_of_eqIgnoreAsciiCase h hb hc]

/-- The address the node asks the chain about, when a ticket names it in its own way. -/
theorem wordAddress_of_eqIgnoreAsciiCase {t u : Text} {w w' : Bytes}
    (h : eqIgnoreAsciiCase t u = true) (ht : Payments.wordAddress t = .ok w)
    (hu : wordAddress u = .ok w') : w' = bigEndian 32 (addressOf t).toNat := by
  obtain ⟨b, hb, -⟩ := wordAddress_ok ht
  unfold wordAddress at hu
  split at hu
  · cases hu
  · next b' hb' =>
    have hsame := Hex.decode_trimStart0x_eq h hb hb'
    subst hsame
    dsimp only at hu
    split at hu
    · next hlength =>
      cases hu
      rw [addressOf, hb]
      exact padded_ofBytes hlength
    · cases hu

theorem strip0x_0x (t : Text) : strip0x (ofString "0x" ++ t) = t := rfl

theorem wordAddress_addressText (a : Address) :
    Payments.wordAddress (addressText a) = .ok (bigEndian 32 a.toNat) := by
  have hsplit := bigEndian_add 12 20 (n := a.toNat) (by have := a.isLt; omega)
  unfold Payments.wordAddress addressText
  rw [strip0x_0x, Hex.decode_encode]
  simp [hsplit]

theorem lower_addressText (a : Address) : lower (addressText a) = addressText a := by
  have happend : lower (addressText a) =
      lower (ofString "0x") ++ lower (Hex.encode (bigEndian 20 a.toNat)) := List.map_append
  rw [happend, Hex.lower_encode]
  rfl

theorem addressText_injective {a b : Address} (h : addressText a = addressText b) : a = b := by
  have hbytes := Hex.encode_injective (List.append_cancel_left h)
  exact BitVec.eq_of_toNat_eq (bigEndian_injective (by have := a.isLt; omega)
    (by have := b.isLt; omega) hbytes)

theorem eq_of_eqIgnoreAsciiCase {a b : Address}
    (h : eqIgnoreAsciiCase (addressText a) (addressText b) = true) : a = b := by
  rw [eqIgnoreAsciiCase_iff, lower_addressText, lower_addressText] at h
  exact addressText_injective h

end Addresses

section Tickets

variable {C : Crypto} {τ : Type} {E : Pot.Deployment τ} {d : Domain}

/-- The domain of the node is the deployment it settles on. -/
structure Serves (E : Pot.Deployment τ) (C : Crypto) (d : Domain) : Prop where
  crypto : E.crypto = C
  chainId : E.chainId = d.chainId
  contract : Payments.wordAddress d.verifyingContract = .ok (bigEndian 32 E.self.toNat)

/-- Node and contract compute the same digest of a spend ticket. -/
theorem digest_eq (hd : Serves E C d) {t : SpendTicket} {h : Bytes32}
    (hdigest : t.digest C d = .ok h) :
    h = Pot.ticketDigest E Pot.ticketTypehash (addressOf t.client) (addressOf t.workerPayout)
      t.cumulative t.deadline := by
  simp only [SpendTicket.digest, digestOfNamed, Domain.separatorNamed, bind_eq_ok] at hdigest
  obtain ⟨client, hclient, payout, hpayout, separator, ⟨contract, hcontract, hsep⟩, hh⟩ := hdigest
  rw [hd.contract] at hcontract
  have hself := Except.ok.inj hcontract
  have hsep' := Except.ok.inj hsep
  have hh' := Except.ok.inj hh
  rw [← hh', ← hsep', ← hself]
  obtain ⟨-, -, hclient⟩ := wordAddress_ok hclient
  obtain ⟨-, -, hpayout⟩ := wordAddress_ok hpayout
  rw [hclient, hpayout]
  simp [Pot.ticketDigest, Pot.digest, Pot.domainSeparator, Crypto.domainSeparator, abiEncode,
    hd.crypto, hd.chainId, word, wordU64, potDomainName, SpendTicket.typehash, Pot.ticketTypehash]

theorem ecrecover_parity {digest : Bytes32} {v r s : ℕ} {odd : Bool} {signer : Address}
    (hv : parity v = some odd) (hsigner : C.recoverSigner digest odd r s = some signer) :
    C.ecrecover digest (if v < 27 then v + 27 else v) r s = signer := by
  unfold parity at hv
  split at hv
  · next hfalse =>
    cases hv
    rcases hfalse with rfl | rfl <;> simp [Crypto.ecrecover, hsigner]
  · split at hv
    · next htrue =>
      cases hv
      rcases htrue with rfl | rfl <;> simp [Crypto.ecrecover, hsigner]
    · cases hv

/-- A signer the node recovers is the one the contract recovers. -/
theorem recover_eq (hE : E.crypto = C) {digest : Bytes32} {sig t : Text}
    (h : Payments.recover C digest sig = .ok t) :
    ∃ bytes signer, Hex.decode (strip0x sig) = .ok bytes ∧ bytes.length = 65 ∧
      t = addressText signer ∧ (signer ≠ 0 → Pot.recover E digest bytes = .ok signer) := by
  unfold Payments.recover at h
  split at h
  · cases h
  · next bytes hbytes =>
    split at h
    · cases h
    · next hlength =>
      dsimp only at h
      split at h
      · cases h
      · next odd hodd =>
        split at h
        · cases h
        · split at h
          · cases h
          · next hhalf =>
            split at h
            · cases h
            · next signer hsigner =>
              cases h
              refine ⟨bytes, signer, hbytes, not_ne_iff.mp hlength, rfl, fun hne => ?_⟩
              have hrec := ecrecover_parity hodd hsigner
              simp only [Pot.recover, bind_eq_ok, require_eq_ok, Pot.pure_eq_ok, hE, hrec]
              exact ⟨⟨⟩, not_ne_iff.mp hlength, ⟨⟩, not_lt.mp hhalf, ⟨⟩, hne, trivial⟩

/-- A ticket the node checks against the key it read off the chain carries a signature the contract
accepts from that key. -/
theorem check_signed (hd : Serves E C d) {t : SpendTicket} {sig : Text} {key : Address} {now : ℕ}
    (hkey : key ≠ 0) (h : t.check C d sig (addressText key) now = .ok ⟨⟩) :
    now < t.deadline ∧ ∃ bytes, Hex.decode (strip0x sig) = .ok bytes ∧ bytes.length = 65 ∧
      Pot.recover E (Pot.ticketDigest E Pot.ticketTypehash (addressOf t.client)
        (addressOf t.workerPayout) t.cumulative t.deadline) bytes = .ok key := by
  simp only [SpendTicket.check, SpendTicket.recover, bind_eq_ok, require_eq_ok] at h
  obtain ⟨-, hlive, signer, ⟨digest, hdigest, hsigner⟩, hsame⟩ := h
  obtain ⟨bytes, a, hbytes, hlength, rfl, hrecover⟩ := recover_eq hd.crypto hsigner
  have ha : a = key := eq_of_eqIgnoreAsciiCase hsame
  subst ha
  rw [digest_eq hd hdigest] at hrecover
  exact ⟨hlive, bytes, hbytes, hlength, hrecover hkey⟩

end Tickets

end Rootmode.Worker.Chain
