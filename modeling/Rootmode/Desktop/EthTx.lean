import Rootmode.Worker.Rlp

namespace Rootmode.Desktop

open Lib Lib.Bytes Lib.Rlp

def stripZeros (b : Bytes) : Bytes :=
  let i := (b.findIdx? (· ≠ 0)).getD b.length
  if i = b.length then [] else b.drop i

def u64Be (n : UInt64) : Bytes :=
  let be := bigEndian 8 n.toNat
  let start := (be.findIdx? (· ≠ 0)).getD 7
  be.drop start

def rlpWrap (short long : UInt8) (b : Bytes) : Bytes :=
  let n := b.length
  if n ≤ 55 then (short + UInt8.ofNat n) :: b
  else
    let lb := u64Be (UInt64.ofNat n)
    (long + UInt8.ofNat lb.length) :: lb ++ b

def rlpBytes (b : Bytes) : Bytes :=
  if b.length = 1 ∧ b.getD 0 0 < 0x80 then [b.getD 0 0] else rlpWrap 0x80 0xb7 b

def rlpU64 (n : UInt64) : Bytes :=
  if n = 0 then [0x80]
  else
    let be := bigEndian 8 n.toNat
    let start := (be.findIdx? (· ≠ 0)).getD 7
    rlpBytes (be.drop start)

def rlpList (items : List Bytes) : Bytes := rlpWrap 0xc0 0xf7 items.flatten

def legacyRlp (tx : LegacyTx) (sig : Option TxSignature) : Bytes :=
  let items := [rlpU64 tx.nonce, rlpU64 tx.gasPrice, rlpU64 tx.gas,
    rlpBytes (bigEndian 20 tx.recipient.toNat), rlpU64 tx.value, rlpBytes tx.data]
  rlpList (items ++ match sig with
    | none => [rlpU64 tx.chainId, rlpU64 0, rlpU64 0]
    | some sig => [rlpU64 sig.v, rlpBytes (stripZeros sig.r), rlpBytes (stripZeros sig.s)])

/-- The two copies write the same. -/
theorem legacyRlp_eq_worker : legacyRlp = Worker.legacyRlp := rfl

end Rootmode.Desktop

namespace Rootmode.LegacyTx

open Lib Lib.Bytes Lib.Rlp

section Numbers

variable {b b' : Bytes}

theorem stripped_zeros (k : ℕ) (b : Bytes) : stripped (List.replicate k 0 ++ b) = stripped b := by
  induction k with
  | zero => rfl
  | succ k ih =>
    rw [List.replicate_succ, List.cons_append, stripped, List.dropWhile_cons_of_pos (by simp)]
    exact ih

/-- What is written without zeros before it is told by its value. -/
theorem stripped_eq_of_value (h : ofBigEndian b = ofBigEndian b') : stripped b = stripped b' := by
  have hpadded : ∀ (k : ℕ) (b : Bytes),
      stripped (bigEndian (k + b.length) (ofBigEndian b)) = stripped b := by
    intro k b
    rw [bigEndian_add k b.length (ofBigEndian_lt b), stripped_zeros, bigEndian_ofBigEndian]
  rw [← hpadded b'.length b, ← hpadded b.length b', h, Nat.add_comm]

theorem value_injective (hlength : b.length = b'.length) (h : ofBigEndian b = ofBigEndian b') : b = b' := by
  rw [← bigEndian_ofBigEndian b, ← bigEndian_ofBigEndian b', h, hlength]

theorem stripped_word {n : ℕ} {b : Bytes} (h : ofBigEndian b = n) (hlt : n < 2 ^ 64) :
    stripped b = stripped (bigEndian 8 n) := by
  refine stripped_eq_of_value ?_
  rw [ofBigEndian_bigEndian, Nat.mod_eq_of_lt (hlt.trans_eq (by norm_num)), h]

end Numbers

section Carried

variable {tx tx' : LegacyTx} {sig sig' : Option TxSignature}

theorem recipient_injective {a a' : Address} (h : bigEndian 20 a.toNat = bigEndian 20 a'.toNat) : a = a' :=
  BitVec.eq_of_toNat_eq (bigEndian_injective (a.isLt.trans_eq (by norm_num)) (a'.isLt.trans_eq (by norm_num)) h)

theorem lastItems_of_fields (h : tx.lastFields sig = tx'.lastFields sig') :
    tx.lastItems sig = tx'.lastItems sig' := by
  have hzero : ∀ b : Bytes, ofBigEndian b = 0 → stripped b = stripped (bigEndian 8 0) :=
    fun b hb => stripped_word hb (by decide)
  cases sig with
  | none =>
    cases sig' with
    | none =>
      simp only [lastFields, Prod.mk.injEq, and_true] at h
      simp only [lastItems, h]
    | some sig' =>
      simp only [lastFields, Prod.mk.injEq] at h
      simp only [lastItems, h.1, int, hzero _ h.2.1.symm, hzero _ h.2.2.symm]
  | some sig =>
    cases sig' with
    | none =>
      simp only [lastFields, Prod.mk.injEq] at h
      simp only [lastItems, h.1, int, hzero _ h.2.1, hzero _ h.2.2]
    | some sig' =>
      simp only [lastFields, Prod.mk.injEq] at h
      simp only [lastItems, h.1, stripped_eq_of_value h.2.1, stripped_eq_of_value h.2.2]

theorem item_of_carried (h : tx.carried sig = tx'.carried sig') : tx.item sig = tx'.item sig' := by
  simp only [carried, Fields.mk.injEq] at h
  obtain ⟨hnonce, hgasPrice, hgas, hrecipient, hvalue, hdata, hlast⟩ := h
  rw [item, item, hnonce, hgasPrice, hgas, hrecipient, hvalue, hdata, lastItems_of_fields hlast]

theorem legacyRlp_inj :
    Worker.legacyRlp tx sig = Worker.legacyRlp tx' sig' ↔ tx.carried sig = tx'.carried sig' := by
  constructor
  · intro h
    have hread := congrArg read h
    rw [Worker.read_legacyRlp, Worker.read_legacyRlp] at hread
    exact Option.some.inj hread
  · intro h
    rw [Worker.legacyRlp_eq, Worker.legacyRlp_eq, item_of_carried h]

theorem eq_of_carried (h : tx.carried sig = tx'.carried sig') : tx = { tx' with chainId := tx.chainId } := by
  obtain ⟨nonce, gasPrice, gas, recipient, value, data, chainId, hdata⟩ := tx
  obtain ⟨nonce', gasPrice', gas', recipient', value', data', chainId', hdata'⟩ := tx'
  simp only [carried, Fields.mk.injEq, UInt64.toNat_inj] at h
  obtain ⟨rfl, rfl, rfl, hrecipient, rfl, rfl, -⟩ := h
  obtain rfl := recipient_injective hrecipient
  rfl

theorem unsigned_inj (h : tx.carried none = tx'.carried none) : tx = tx' := by
  have hchain : tx.chainId = tx'.chainId := by
    simpa [carried, lastFields, UInt64.toNat_inj] using congrArg (fun f => f.last.1) h
  have htx := eq_of_carried h
  rw [hchain] at htx
  exact htx

theorem signature_inj {s s' : TxSignature} (h : tx.carried (some s) = tx'.carried (some s')) : s = s' := by
  have hlast := congrArg Fields.last h
  simp only [carried, lastFields, Prod.mk.injEq, UInt64.toNat_inj] at hlast
  obtain ⟨v, r, s, hr, hs⟩ := s
  obtain ⟨v', r', s', hr', hs'⟩ := s'
  obtain ⟨rfl, hvr, hvs⟩ := hlast
  obtain rfl := value_injective (hr.trans hr'.symm) hvr
  obtain rfl := value_injective (hs.trans hs'.symm) hvs
  rfl

end Carried

/-- What is written is read back, tells apart what it carries, and is the same wherever it is written. -/
theorem legacyRlp_law :
    (∀ tx sig, read (Worker.legacyRlp tx sig) = some (carried tx sig)) ∧
    (∀ tx tx' sig sig', Worker.legacyRlp tx sig = Worker.legacyRlp tx' sig' ↔ carried tx sig = carried tx' sig') ∧
    (∀ tx tx', Worker.legacyRlp tx none = Worker.legacyRlp tx' none → tx = tx') ∧
    (∀ tx tx' s s', Worker.legacyRlp tx (some s) = Worker.legacyRlp tx' (some s') →
      s = s' ∧ tx = { tx' with chainId := tx.chainId }) ∧
    (∀ tx sig, Desktop.legacyRlp tx sig = Worker.legacyRlp tx sig) := by
  refine ⟨Worker.read_legacyRlp, fun tx tx' sig sig' => legacyRlp_inj, fun tx tx' h => ?_,
    fun tx tx' s s' h => ?_, fun tx sig => ?_⟩
  · exact unsigned_inj (legacyRlp_inj.mp h)
  · have hcarried := legacyRlp_inj.mp h
    exact ⟨signature_inj hcarried, eq_of_carried hcarried⟩
  · rw [Desktop.legacyRlp_eq_worker]

/-- A transfer of nothing. -/
def blank (chainId : UInt64) : LegacyTx where
  nonce := 0
  gasPrice := 1
  gas := 21000
  recipient := 0
  value := 0
  data := []
  chainId := chainId
  length_data := by decide

def ones : TxSignature where
  v := 37
  r := List.replicate 32 1
  s := List.replicate 32 1
  length_r := by decide
  length_s := by decide

/-- The chain of a signed transaction is not written. -/
theorem legacyRlp_not_injective :
    ¬ Function.Injective fun x : LegacyTx × Option TxSignature => Worker.legacyRlp x.1 x.2 := by
  intro h
  have hsame : (blank 1, some ones) = (blank 2, some ones) := h (legacyRlp_inj.mpr rfl)
  have hchain := congrArg (fun x => x.1.chainId) hsame
  revert hchain
  decide

end Rootmode.LegacyTx
