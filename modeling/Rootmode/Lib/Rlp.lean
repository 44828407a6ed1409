import Rootmode.Lib.Bytes
import Mathlib.Data.List.TakeWhile

namespace Lib.Rlp

open Bytes

/-- What is written: strings of bytes and lists of such. -/
inductive Item
  | str (b : Bytes)
  | list (items : List Item)

/-- A string without the zeros it begins with. -/
def stripped (b : Bytes) : Bytes := b.dropWhile (· = 0)

/-- A byte that stands for itself. -/
def single : Bytes → Bool
  | [d] => decide (d.toNat < 0x80)
  | _ => false

/-- What tells the length of what follows, the kind of it in its first byte. -/
def header (base n : ℕ) : Bytes :=
  if n ≤ 55 then [UInt8.ofNat (base + n)]
  else
    let digits := stripped (bigEndian 8 n)
    UInt8.ofNat (base + 55 + digits.length) :: digits

def encodeStr (b : Bytes) : Bytes := if single b then b else header 0x80 b.length ++ b

mutual

def encode : Item → Bytes
  | .str b => encodeStr b
  | .list items =>
    let payload := encodeAll items
    header 0xc0 payload.length ++ payload

def encodeAll : List Item → Bytes
  | [] => []
  | item :: items => encode item ++ encodeAll items

end

/-- An item's own bytes, and what follows it. -/
def payload (isList : Bool) (n : ℕ) (after : Bytes) : Option (Bool × Bytes × Bytes) :=
  if n ≤ after.length then some (isList, after.take n, after.drop n) else none

/-- The length in as few bytes as it takes, and not where it would fit in the first one. -/
def long (isList : Bool) (k : ℕ) (after : Bytes) : Option (Bool × Bytes × Bytes) :=
  let n := ofBigEndian (after.take k)
  if k ≤ after.length ∧ after.head? ≠ some 0 ∧ 55 < n then payload isList n (after.drop k) else none

/-- The first item: whether it is a list, its own bytes, and what follows. -/
def next : Bytes → Option (Bool × Bytes × Bytes)
  | [] => none
  | d :: after =>
    let t := d.toNat
    if t < 0x80 then some (false, [d], after)
    else if t ≤ 0xb7 then (payload false (t - 0x80) after).filter fun found => !single found.2.1
    else if t ≤ 0xbf then long false (t - 0xb7) after
    else if t ≤ 0xf7 then payload true (t - 0xc0) after
    else long true (t - 0xf7) after

/-- As many items as there are, each at least a byte long. -/
def decodeAll : ℕ → Bytes → Option (List Item)
  | _, [] => some []
  | 0, _ :: _ => none
  | fuel + 1, b => do
    let (isList, own, after) ← next b
    let first ← if isList then (decodeAll fuel own).map Item.list else some (.str own)
    let others ← decodeAll fuel after
    return first :: others

/-- The one item that is written. -/
def decode (b : Bytes) : Option Item :=
  match decodeAll b.length b with
  | some [item] => some item
  | _ => none

section Digits

variable {b : Bytes} {n base : ℕ}

theorem ofBigEndian_zero_cons : ofBigEndian (0 :: b) = ofBigEndian b := by
  simp [ofBigEndian]

theorem ofBigEndian_stripped : ofBigEndian (stripped b) = ofBigEndian b := by
  induction b with
  | nil => rfl
  | cons d b ih =>
    unfold stripped at ih ⊢
    by_cases hd : d = 0
    · rw [List.dropWhile_cons_of_pos (by simpa using hd), ih, hd, ofBigEndian_zero_cons]
    · rw [List.dropWhile_cons_of_neg (by simpa using hd)]

theorem head?_stripped : (stripped b).head? ≠ some 0 := by
  intro h
  have hhead := List.head?_dropWhile_not (fun d : UInt8 => decide (d = 0)) b
  rw [stripped] at h
  rw [h] at hhead
  simp at hhead

theorem length_stripped_le : (stripped b).length ≤ b.length :=
  (List.dropWhile_sublist _).length_le

theorem ofBigEndian_digits (h : n < 2 ^ 64) : ofBigEndian (stripped (bigEndian 8 n)) = n := by
  rw [ofBigEndian_stripped, ofBigEndian_bigEndian, Nat.mod_eq_of_lt (h.trans_eq (by norm_num))]

theorem digits_ne_nil (h : n < 2 ^ 64) (hn : n ≠ 0) : stripped (bigEndian 8 n) ≠ [] := by
  intro hnil
  have hread := ofBigEndian_digits h
  rw [hnil] at hread
  exact hn hread.symm

theorem length_digits_le : (stripped (bigEndian 8 n)).length ≤ 8 :=
  length_stripped_le.trans_eq (length_bigEndian 8 n)

theorem length_digits_pos (h : n < 2 ^ 64) (hn : n ≠ 0) : 0 < (stripped (bigEndian 8 n)).length :=
  List.length_pos_of_ne_nil (digits_ne_nil h hn)

theorem header_ne_nil : header base n ≠ [] := by
  unfold header
  split <;> exact List.cons_ne_nil _ _

end Digits

section Next

variable {b own rest : Bytes} {isList : Bool} {n : ℕ}

theorem payload_append (h : own.length = n) : payload isList n (own ++ rest) = some (isList, own, rest) := by
  have hle : n ≤ (own ++ rest).length := by
    rw [List.length_append]
    omega
  rw [payload, if_pos hle, List.take_left' h, List.drop_left' h]

theorem long_append (hlt : own.length < 2 ^ 64) (hlong : 55 < own.length) :
    long isList (stripped (bigEndian 8 own.length)).length
      (stripped (bigEndian 8 own.length) ++ (own ++ rest)) = some (isList, own, rest) := by
  have hdigits := digits_ne_nil hlt (by omega)
  have hhead : (stripped (bigEndian 8 own.length) ++ (own ++ rest)).head? ≠ some 0 := by
    rw [List.head?_append_of_ne_nil _ hdigits]
    exact head?_stripped
  unfold long
  simp only [List.take_left, List.drop_left, ofBigEndian_digits hlt]
  rw [if_pos ⟨by simp, hhead, hlong⟩, payload_append rfl]

theorem toNat_ofNat {t : ℕ} (h : t < 256) : (UInt8.ofNat t).toNat = t := by
  rw [UInt8.toNat_ofNat', Nat.mod_eq_of_lt (by omega)]

theorem next_cons (d : UInt8) (after : Bytes) : next (d :: after) =
    let t := d.toNat
    if t < 0x80 then some (false, [d], after)
    else if t ≤ 0xb7 then (payload false (t - 0x80) after).filter fun found => !single found.2.1
    else if t ≤ 0xbf then long false (t - 0xb7) after
    else if t ≤ 0xf7 then payload true (t - 0xc0) after
    else long true (t - 0xf7) after := rfl

theorem next_str (hlt : own.length < 2 ^ 64) : next (encodeStr own ++ rest) = some (false, own, rest) := by
  unfold encodeStr
  split
  · next hsingle =>
    -- a single byte stands for itself
    match own, hsingle with
    | [d], hsingle =>
      have hd : d.toNat < 0x80 := by simpa [single] using hsingle
      rw [List.singleton_append, next_cons]
      dsimp only
      rw [if_pos hd]
  · next hsingle =>
    unfold header
    split
    · next hshort =>
      have ht : (UInt8.ofNat (0x80 + own.length)).toNat = 0x80 + own.length := toNat_ofNat (by omega)
      rw [List.append_assoc, List.singleton_append, next_cons]
      dsimp only
      rw [ht, if_neg (by omega), if_pos (by omega), Nat.add_sub_cancel_left, payload_append rfl]
      simp [Option.filter, hsingle]
    · next hlong =>
      have hle := length_digits_le (n := own.length)
      have hpos := length_digits_pos hlt (by omega)
      have ht := toNat_ofNat (t := 0x80 + 55 + (stripped (bigEndian 8 own.length)).length) (by omega)
      rw [List.append_assoc, List.cons_append, next_cons]
      dsimp only
      rw [ht, if_neg (by omega), if_neg (by omega), if_pos (by omega),
        show 0x80 + 55 + (stripped (bigEndian 8 own.length)).length - 0xb7 =
          (stripped (bigEndian 8 own.length)).length by omega]
      exact long_append hlt (by omega)

theorem next_list (hlt : own.length < 2 ^ 64) :
    next (header 0xc0 own.length ++ own ++ rest) = some (true, own, rest) := by
  unfold header
  split
  · next hshort =>
    have ht : (UInt8.ofNat (0xc0 + own.length)).toNat = 0xc0 + own.length := toNat_ofNat (by omega)
    rw [List.append_assoc, List.singleton_append, next_cons]
    dsimp only
    rw [ht, if_neg (by omega), if_neg (by omega), if_neg (by omega), if_pos (by omega),
      Nat.add_sub_cancel_left, payload_append rfl]
  · next hlong =>
    have hle := length_digits_le (n := own.length)
    have hpos := length_digits_pos hlt (by omega)
    have ht := toNat_ofNat (t := 0xc0 + 55 + (stripped (bigEndian 8 own.length)).length) (by omega)
    rw [List.append_assoc, List.cons_append, next_cons]
    dsimp only
    rw [ht, if_neg (by omega), if_neg (by omega), if_neg (by omega), if_neg (by omega),
      show 0xc0 + 55 + (stripped (bigEndian 8 own.length)).length - 0xf7 =
        (stripped (bigEndian 8 own.length)).length by omega]
    exact long_append hlt (by omega)

end Next

section RoundTrip

variable {item : Item} {items : List Item}

theorem encode_str (b : Bytes) : encode (.str b) = encodeStr b := by rw [encode]

theorem encode_list (items : List Item) :
    encode (.list items) = header 0xc0 (encodeAll items).length ++ encodeAll items := by rw [encode]

theorem encodeAll_nil : encodeAll [] = [] := by rw [encodeAll]

theorem encodeAll_cons : encodeAll (item :: items) = encode item ++ encodeAll items := by rw [encodeAll]

theorem encodeStr_ne_nil (b : Bytes) : encodeStr b ≠ [] := by
  unfold encodeStr
  split
  · next hsingle =>
    rintro rfl
    cases hsingle
  · exact List.append_ne_nil_of_left_ne_nil header_ne_nil _

theorem length_le_encodeStr (b : Bytes) : b.length ≤ (encodeStr b).length := by
  unfold encodeStr
  split
  · exact le_rfl
  · rw [List.length_append]
    omega

theorem decodeAll_nil (fuel : ℕ) : decodeAll fuel [] = some [] := by
  cases fuel <;> rfl

theorem decodeAll_succ (fuel : ℕ) {b : Bytes} (h : b ≠ []) : decodeAll (fuel + 1) b = do
    let (isList, own, after) ← next b
    let first ← if isList then (decodeAll fuel own).map Item.list else some (.str own)
    let others ← decodeAll fuel after
    return first :: others := by
  cases b with
  | nil => exact absurd rfl h
  | cons d b => rfl

/-- Each item is shorter than what it is in, so the induction is on the length. -/
theorem decodeAll_encodeAll (fuel : ℕ) (items : List Item) (hfuel : (encodeAll items).length ≤ fuel)
    (hlt : (encodeAll items).length < 2 ^ 64) : decodeAll fuel (encodeAll items) = some items := by
  induction fuel generalizing items with
  | zero =>
    cases items with
    | nil => rw [encodeAll_nil, decodeAll_nil]
    | cons item items =>
      rw [encodeAll_cons, List.length_append] at hfuel
      exfalso
      cases item with
      | str b =>
        have hne := List.length_pos_of_ne_nil (encodeStr_ne_nil b)
        rw [encode_str] at hfuel
        omega
      | list inner =>
        have hne := List.length_pos_of_ne_nil (@header_ne_nil (encodeAll inner).length 0xc0)
        rw [encode_list, List.length_append] at hfuel
        omega
  | succ fuel ih =>
    cases items with
    | nil => rw [encodeAll_nil, decodeAll_nil]
    | cons item items =>
      rw [encodeAll_cons] at hfuel hlt ⊢
      rw [List.length_append] at hfuel hlt
      cases item with
      | str b =>
        have hne := List.length_pos_of_ne_nil (encodeStr_ne_nil b)
        have hle := length_le_encodeStr b
        rw [encode_str] at hfuel hlt ⊢
        have hrest := ih items (by omega) (by omega)
        rw [decodeAll_succ fuel (List.append_ne_nil_of_left_ne_nil (encodeStr_ne_nil b) _),
          next_str (by omega)]
        simp [hrest]
      | list inner =>
        have hhead := List.length_pos_of_ne_nil (@header_ne_nil (encodeAll inner).length 0xc0)
        rw [encode_list, List.length_append] at hfuel hlt
        have hinner := ih inner (by omega) (by omega)
        have hrest := ih items (by omega) (by omega)
        rw [encode_list, decodeAll_succ fuel (by simp [header_ne_nil]), next_list (by omega)]
        simp [hinner, hrest]

theorem decode_encode (h : (encode item).length < 2 ^ 64) : decode (encode item) = some item := by
  have hone : encodeAll [item] = encode item := by rw [encodeAll_cons, encodeAll_nil, List.append_nil]
  rw [decode, ← hone, decodeAll_encodeAll _ [item] le_rfl (hone ▸ h)]

end RoundTrip

section Numbers

variable {n : ℕ} {b : Bytes}

/-- A number, without zeros before it. -/
def int (n : ℕ) : Item := .str (stripped (bigEndian 8 n))

def readInt : Item → Option ℕ
  | .str b => if b.head? = some 0 then none else some (ofBigEndian b)
  | .list _ => none

theorem readInt_stripped (b : Bytes) : readInt (.str (stripped b)) = some (ofBigEndian b) := by
  rw [readInt, if_neg head?_stripped, ofBigEndian_stripped]

theorem readInt_int (h : n < 2 ^ 64) : readInt (int n) = some n := by
  rw [int, readInt_stripped, ofBigEndian_bigEndian, Nat.mod_eq_of_lt (h.trans_eq (by norm_num))]

end Numbers

end Lib.Rlp
