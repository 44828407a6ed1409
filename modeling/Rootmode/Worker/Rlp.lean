import Rootmode.Core.Crypto
import Rootmode.Lib.Rlp

namespace Rootmode

open Lib Lib.Bytes Lib.Rlp

/-- A transaction to sign, its data no longer than a vector can be. -/
structure LegacyTx where
  nonce : UInt64
  gasPrice : UInt64
  gas : UInt64
  recipient : Address
  value : UInt64
  data : Bytes
  chainId : UInt64
  length_data : data.length < 2 ^ 63

structure TxSignature where
  v : UInt64
  r : Bytes
  s : Bytes
  length_r : r.length = 32
  length_s : s.length = 32

namespace LegacyTx

/-- What is written of a transaction: unsigned, its chain and two zeros; signed, the signature. -/
structure Fields where
  nonce : ℕ
  gasPrice : ℕ
  gas : ℕ
  recipient : Bytes
  value : ℕ
  data : Bytes
  last : ℕ × ℕ × ℕ

def lastFields (tx : LegacyTx) : Option TxSignature → ℕ × ℕ × ℕ
  | none => (tx.chainId.toNat, 0, 0)
  | some sig => (sig.v.toNat, ofBigEndian sig.r, ofBigEndian sig.s)

def carried (tx : LegacyTx) (sig : Option TxSignature) : Fields where
  nonce := tx.nonce.toNat
  gasPrice := tx.gasPrice.toNat
  gas := tx.gas.toNat
  recipient := bigEndian 20 tx.recipient.toNat
  value := tx.value.toNat
  data := tx.data
  last := lastFields tx sig

/-- Reads a transaction, its numbers without zeros before them. -/
def read (b : Bytes) : Option Fields :=
  match decode b with
  | some (.list [nonce, gasPrice, gas, .str recipient, value, .str data, x, y, z]) => do
    let nonce ← readInt nonce
    let gasPrice ← readInt gasPrice
    let gas ← readInt gas
    let value ← readInt value
    let x ← readInt x
    let y ← readInt y
    let z ← readInt z
    return { nonce, gasPrice, gas, recipient, value, data, last := (x, y, z) }
  | _ => none

def lastItems (tx : LegacyTx) : Option TxSignature → List Item
  | none => [int tx.chainId.toNat, int 0, int 0]
  | some sig => [int sig.v.toNat, .str (stripped sig.r), .str (stripped sig.s)]

/-- A transaction as a list of strings. -/
def item (tx : LegacyTx) (sig : Option TxSignature) : Item :=
  .list ([int tx.nonce.toNat, int tx.gasPrice.toNat, int tx.gas.toNat,
    .str (bigEndian 20 tx.recipient.toNat), int tx.value.toNat, .str tx.data] ++ lastItems tx sig)

end LegacyTx

namespace Worker

def stripZeros (b : Bytes) : Bytes :=
  let i := (b.findIdx? (· ≠ 0)).getD b.length
  if i = b.length then [] else b.drop i

def u64Be (n : UInt64) : Bytes :=
  let be := bigEndian 8 n.toNat
  let start := (be.findIdx? (· ≠ 0)).getD 7
  be.drop start

def rlpWrap (short long : UInt8) (b : Bytes) : Bytes :=
  let n := b.length
  if n ≤ 55 then (short + UInt8.ofNat n) :: b
  else
    let lb := u64Be (UInt64.ofNat n)
    (long + UInt8.ofNat lb.length) :: lb ++ b

def rlpBytes (b : Bytes) : Bytes :=
  if b.length = 1 ∧ b.getD 0 0 < 0x80 then [b.getD 0 0] else rlpWrap 0x80 0xb7 b

def rlpU64 (n : UInt64) : Bytes :=
  if n = 0 then [0x80]
  else
    let be := bigEndian 8 n.toNat
    let start := (be.findIdx? (· ≠ 0)).getD 7
    rlpBytes (be.drop start)

def rlpList (items : List Bytes) : Bytes := rlpWrap 0xc0 0xf7 items.flatten

def legacyRlp (tx : LegacyTx) (sig : Option TxSignature) : Bytes :=
  let items := [rlpU64 tx.nonce, rlpU64 tx.gasPrice, rlpU64 tx.gas,
    rlpBytes (bigEndian 20 tx.recipient.toNat), rlpU64 tx.value, rlpBytes tx.data]
  rlpList (items ++ match sig with
    | none => [rlpU64 tx.chainId, rlpU64 0, rlpU64 0]
    | some sig => [rlpU64 sig.v, rlpBytes (stripZeros sig.r), rlpBytes (stripZeros sig.s)])

section Written

variable {b : Bytes} {n : UInt64} {base k : ℕ}

theorem findIdx?_of_zeros (h : ∀ d ∈ b, d = 0) : b.findIdx? (· ≠ 0) = none :=
  List.findIdx?_eq_none_iff.mpr fun d hd => decide_eq_false (not_not.mpr (h d hd))

theorem drop_findIdx? (h : stripped b ≠ []) :
    b.drop ((b.findIdx? (· ≠ 0)).getD k) = stripped b := by
  induction b with
  | nil => exact absurd rfl h
  | cons d b ih =>
    unfold stripped at ih h ⊢
    by_cases hd : d = 0
    · rw [List.dropWhile_cons_of_pos (by simpa using hd)] at h ⊢
      rw [← ih h, List.findIdx?_cons, if_neg (by simpa using hd)]
      cases hfind : b.findIdx? (· ≠ 0) with
      | none =>
        refine absurd (List.dropWhile_eq_nil_iff.mpr fun x hx => ?_) h
        simpa using List.findIdx?_eq_none_iff.mp hfind x hx
      | some i => rfl
    · rw [List.dropWhile_cons_of_neg (by simpa using hd), List.findIdx?_cons,
        if_pos (decide_eq_true hd)]
      rfl

theorem stripZeros_eq (b : Bytes) : stripZeros b = stripped b := by
  unfold stripZeros
  by_cases h : stripped b = []
  · have hzeros : ∀ d ∈ b, d = 0 := fun d hd => by
      simpa using List.dropWhile_eq_nil_iff.mp h d hd
    rw [findIdx?_of_zeros hzeros, h]
    exact if_pos rfl
  · rw [← drop_findIdx? (k := b.length) h]
    dsimp only
    split
    · next hall => rw [hall, List.drop_length]
    · rfl

theorem u64Be_eq (h : n ≠ 0) : u64Be n = stripped (bigEndian 8 n.toNat) :=
  drop_findIdx? (digits_ne_nil n.toNat_lt (by simpa [← UInt64.toNat_inj] using h))

theorem rlpWrap_eq (hlt : b.length < 2 ^ 64) :
    rlpWrap (UInt8.ofNat base) (UInt8.ofNat (base + 55)) b = header base b.length ++ b := by
  unfold rlpWrap header
  by_cases hshort : b.length ≤ 55
  · rw [if_pos hshort, if_pos hshort, List.singleton_append, UInt8.ofNat_add]
  · have hread : (UInt64.ofNat b.length).toNat = b.length := by
      rw [UInt64.toNat_ofNat', Nat.mod_eq_of_lt hlt]
    have hne : UInt64.ofNat b.length ≠ 0 := by
      rw [Ne, ← UInt64.toNat_inj, hread, UInt64.toNat_zero]
      omega
    rw [if_neg hshort]
    dsimp only
    rw [if_neg hshort, u64Be_eq hne, hread, UInt8.ofNat_add (base + 55)]

theorem rlpBytes_eq (hlt : b.length < 2 ^ 64) : rlpBytes b = encodeStr b := by
  have hwrap : rlpWrap 0x80 0xb7 b = header 0x80 b.length ++ b := @rlpWrap_eq b 0x80 hlt
  unfold rlpBytes encodeStr
  match b, hwrap with
  | [], hwrap => exact hwrap
  | [d], hwrap =>
    have hd : d < 0x80 ↔ d.toNat < 0x80 := UInt8.lt_iff_toNat_lt
    simp only [List.length_singleton, List.getD_cons_zero, true_and, single, hd, decide_eq_true_eq]
    split
    · rfl
    · exact hwrap
  | d :: d' :: b, hwrap =>
    rw [if_neg (by simp), hwrap]
    simp [single]

theorem rlpU64_eq (n : UInt64) : rlpU64 n = encode (int n.toNat) := by
  unfold rlpU64
  split
  · next h =>
    subst h
    rw [int, encode_str]
    decide
  · next h =>
    have hdigits := u64Be_eq h
    unfold u64Be at hdigits
    have hle := length_digits_le (n := n.toNat)
    dsimp only at hdigits ⊢
    rw [hdigits, rlpBytes_eq (by omega), int, encode_str]

end Written

section Encoded

variable (tx : LegacyTx) (sig : Option TxSignature)

theorem length_encodeStr_le (b : Bytes) : (encodeStr b).length ≤ b.length + 9 := by
  have hle := length_digits_le (n := b.length)
  unfold encodeStr header
  split
  · omega
  · split
    · simp
    · simp only [List.length_append, List.length_cons]
      omega

theorem length_encode_int_le (n : ℕ) : (encode (int n)).length ≤ 17 := by
  have hle := length_digits_le (n := n)
  rw [int, encode_str]
  exact (length_encodeStr_le _).trans (by omega)

theorem length_lastItems_le : (encodeAll (tx.lastItems sig)).length ≤ 100 := by
  cases sig with
  | none =>
    have hchain := length_encode_int_le tx.chainId.toNat
    have hzero := length_encode_int_le 0
    simp only [LegacyTx.lastItems, encodeAll_cons, encodeAll_nil, List.length_append, List.length_nil]
    omega
  | some sig =>
    have hv := length_encode_int_le sig.v.toNat
    have hr := (length_encodeStr_le (stripped sig.r)).trans (Nat.add_le_add_right length_stripped_le 9)
    have hs := (length_encodeStr_le (stripped sig.s)).trans (Nat.add_le_add_right length_stripped_le 9)
    rw [sig.length_r] at hr
    rw [sig.length_s] at hs
    simp only [LegacyTx.lastItems, encodeAll_cons, encodeAll_nil, encode_str, List.length_append,
      List.length_nil]
    omega

theorem encodeAll_append (items items' : List Item) :
    encodeAll (items ++ items') = encodeAll items ++ encodeAll items' := by
  induction items with
  | nil => rw [List.nil_append, encodeAll_nil, List.nil_append]
  | cons item items ih => rw [List.cons_append, encodeAll_cons, encodeAll_cons, ih, List.append_assoc]

/-- The bytes of the list are far from too many for the eight of its length. -/
theorem length_encode_item_lt : (encode (tx.item sig)).length < 2 ^ 64 := by
  have hdata := tx.length_data
  have hwritten := length_encodeStr_le tx.data
  have hrecipient := length_encodeStr_le (bigEndian 20 tx.recipient.toNat)
  have hlast := length_lastItems_le tx sig
  have hnonce := length_encode_int_le tx.nonce.toNat
  have hgasPrice := length_encode_int_le tx.gasPrice.toNat
  have hgas := length_encode_int_le tx.gas.toNat
  have hvalue := length_encode_int_le tx.value.toNat
  rw [length_bigEndian] at hrecipient
  have hheader : ∀ n, (header 0xc0 n).length ≤ 9 := by
    intro n
    have hle := length_digits_le (n := n)
    unfold header
    split
    · simp
    · rw [List.length_cons]
      omega
  have hhead := hheader (encodeAll ([int tx.nonce.toNat, int tx.gasPrice.toNat, int tx.gas.toNat,
    .str (bigEndian 20 tx.recipient.toNat), int tx.value.toNat, .str tx.data] ++ tx.lastItems sig)).length
  rw [LegacyTx.item, encode_list, List.length_append]
  refine (Nat.add_le_add_right hhead _).trans_lt ?_
  rw [encodeAll_append]
  simp only [encodeAll_cons, encodeAll_nil, encode_str, List.length_append, List.length_nil]
  omega

theorem length_encodeAll_lt_of_list {items : List Item} (h : (encode (.list items)).length < 2 ^ 64) :
    (encodeAll items).length < 2 ^ 64 := by
  rw [encode_list, List.length_append] at h
  omega

theorem rlpList_eq {items : List Item} (h : (encode (.list items)).length < 2 ^ 64) :
    rlpList (items.map encode) = encode (.list items) := by
  have hflat : (items.map encode).flatten = encodeAll items := by
    clear h
    induction items with
    | nil => rw [encodeAll_nil, List.map_nil, List.flatten_nil]
    | cons item items ih => rw [List.map_cons, List.flatten_cons, encodeAll_cons, ih]
  rw [rlpList, hflat, encode_list]
  exact @rlpWrap_eq _ 0xc0 (length_encodeAll_lt_of_list h)

theorem legacyRlp_eq : legacyRlp tx sig = encode (tx.item sig) := by
  have hdata : rlpBytes tx.data = encode (.str tx.data) := by
    have hlt := tx.length_data
    rw [encode_str, rlpBytes_eq (by omega)]
  have hrecipient : rlpBytes (bigEndian 20 tx.recipient.toNat) =
      encode (.str (bigEndian 20 tx.recipient.toNat)) := by
    rw [encode_str, rlpBytes_eq (by rw [length_bigEndian]; omega)]
  have hword : ∀ b : Bytes, b.length = 32 → rlpBytes (stripZeros b) = encode (.str (stripped b)) := by
    intro b hb
    have hle := length_stripped_le (b := b)
    rw [stripZeros_eq, encode_str, rlpBytes_eq (by omega)]
  rw [LegacyTx.item, ← rlpList_eq (length_encode_item_lt tx sig)]
  unfold legacyRlp
  rw [hdata, hrecipient]
  cases sig with
  | none => simp [LegacyTx.lastItems, rlpU64_eq]
  | some sig => simp [LegacyTx.lastItems, rlpU64_eq, hword sig.r sig.length_r, hword sig.s sig.length_s]

theorem read_encode_item : LegacyTx.read (encode (tx.item sig)) = some (tx.carried sig) := by
  have hword : ∀ n : UInt64, readInt (int n.toNat) = some n.toNat := fun n => readInt_int n.toNat_lt
  have hzero : readInt (int 0) = some 0 := readInt_int (by decide)
  rw [LegacyTx.read, decode_encode (length_encode_item_lt tx sig), LegacyTx.item]
  cases sig with
  | none => simp [LegacyTx.lastItems, LegacyTx.carried, LegacyTx.lastFields, hword, hzero]
  | some sig => simp [LegacyTx.lastItems, LegacyTx.carried, LegacyTx.lastFields, hword, readInt_stripped]

theorem read_legacyRlp : LegacyTx.read (legacyRlp tx sig) = some (tx.carried sig) := by
  rw [legacyRlp_eq, read_encode_item]

end Encoded

end Worker

end Rootmode
