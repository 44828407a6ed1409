import Rootmode.Lib.Bytes
import Rootmode.Lib.Checked

namespace Lib

/-- A string by its characters. -/
abbrev Text := List Char

namespace Text

def ofString (s : String) : Text := s.toList

def str (t : Text) : String := String.ofList t

/-- The characters with Unicode's `White_Space` property. -/
def isWhitespace (c : Char) : Bool :=
  let n := c.toNat
  decide (9 ≤ n ∧ n ≤ 13 ∨ n = 0x20 ∨ n = 0x85 ∨ n = 0xA0 ∨ n = 0x1680 ∨ 0x2000 ≤ n ∧ n ≤ 0x200A ∨
    n = 0x2028 ∨ n = 0x2029 ∨ n = 0x202F ∨ n = 0x205F ∨ n = 0x3000)

def trim (t : Text) : Text :=
  ((t.dropWhile isWhitespace).reverse.dropWhile isWhitespace).reverse

def lower (t : Text) : Text := t.map Char.toLower

/-- Equal but for the case of ASCII letters. -/
def eqIgnoreAsciiCase (a b : Text) : Bool := lower a == lower b

/-- Without one leading `0x`, if there is one. -/
def strip0x : Text → Text
  | '0' :: 'x' :: t => t
  | t => t

/-- Without any leading `0x`s. -/
def trimStart0x : Text → Text
  | '0' :: 'x' :: t => trimStart0x t
  | t => t

/-- The parts of `t` around the occurrences of `sep`, after `part`.  Of an occurrence `skip` characters
are still to come. -/
def splitFrom (sep : Text) : Nat → Text → Text → List Text
  | _, part, [] => [part]
  | skip + 1, part, _ :: t => splitFrom sep skip part t
  | 0, part, c :: t =>
    if sep.isPrefixOf (c :: t) then part :: splitFrom sep (sep.length - 1) [] t
    else splitFrom sep 0 (part ++ [c]) t

def split (sep t : Text) : List Text := splitFrom sep 0 [] t

/-- A number of 64 bits from its decimal digits. -/
def parseU64 (digits : Text) : Option Nat :=
  if digits = [] then none
  else some (digits.foldl (fun n c => 10 * n + (c.toNat - 48)) 0) |>.filter (· < 2 ^ 64)

theorem code_of_alphanum {c : Char} (h : c.isAlphanum = true) :
    65 ≤ c.toNat ∧ c.toNat ≤ 90 ∨ 97 ≤ c.toNat ∧ c.toNat ≤ 122 ∨ 48 ≤ c.toNat ∧ c.toNat ≤ 57 := by
  rcases (Bool.or_eq_true _ _).mp h with halpha | hdigit
  · rcases (Bool.or_eq_true _ _).mp halpha with hupper | hlower
    · exact .inl (of_decide_eq_true hupper)
    · have hboth := (Bool.and_eq_true _ _).mp hlower
      exact .inr (.inl ⟨of_decide_eq_true hboth.1, of_decide_eq_true hboth.2⟩)
  · have hboth := (Bool.and_eq_true _ _).mp hdigit
    exact .inr (.inr ⟨of_decide_eq_true hboth.1, of_decide_eq_true hboth.2⟩)

theorem eqIgnoreAsciiCase_iff (a b : Text) : eqIgnoreAsciiCase a b = true ↔ lower a = lower b := by
  simp [eqIgnoreAsciiCase]

theorem eqIgnoreAsciiCase_refl (a : Text) : eqIgnoreAsciiCase a a = true := by
  simp [eqIgnoreAsciiCase]

theorem trim_of_forall {t : Text} (h : ∀ c ∈ t, isWhitespace c = false) : trim t = t := by
  have hdrop : ∀ u : Text, (∀ c ∈ u, isWhitespace c = false) → u.dropWhile isWhitespace = u := by
    intro u hu
    cases u with
    | nil => rfl
    | cons c u =>
      rw [List.dropWhile_cons, hu c (.head _)]
      rfl
  rw [trim, hdrop t h, hdrop t.reverse fun c hc => h c (List.mem_reverse.mp hc),
    List.reverse_reverse]

end Text

namespace Hex

inductive Error
  | oddLength
  | invalidCharacter (c : Char) (index : Nat)
  deriving DecidableEq

def Error.text : Error → String
  | .oddLength => "Odd number of digits"
  | .invalidCharacter c index => s!"Invalid character '{c}' at position {index}"

def digit (n : Nat) : Char := Char.ofNat (if n < 10 then 48 + n else 87 + n)

/-- The value of a digit of either case, by its code. -/
def val (n : Nat) : Option Nat :=
  if 48 ≤ n ∧ n ≤ 57 then some (n - 48)
  else if 65 ≤ n ∧ n ≤ 70 then some (n - 55)
  else if 97 ≤ n ∧ n ≤ 102 then some (n - 87)
  else none

def pair (d : UInt8) : Text := [digit (d.toNat / 16), digit (d.toNat % 16)]

def encode (b : Bytes) : Text := b.flatMap pair

def utf8 (t : Text) : Bytes := t.flatMap String.utf8EncodeChar

def valAt (d : UInt8) (index : Nat) : Except Error Nat :=
  match val d.toNat with
  | some n => .ok n
  | none => .error (.invalidCharacter (Char.ofNat d.toNat) index)

def decodeFrom : Nat → Bytes → Except Error Bytes
  | index, hi :: lo :: rest => do
    let hi ← valAt hi index
    let lo ← valAt lo (index + 1)
    let rest ← decodeFrom (index + 2) rest
    return UInt8.ofNat (16 * hi + lo) :: rest
  | _, _ => .ok []

def decode (t : Text) : Except Error Bytes :=
  if (utf8 t).length % 2 = 0 then decodeFrom 0 (utf8 t) else .error .oddLength

/-- The digits of `t` read on from `n`. -/
def readFrom (n : Nat) (t : Text) : Option Nat :=
  t.foldlM (fun n c => (val c.toNat).map (16 * n + ·)) n

/-- A number of `w` bits in hexadecimal, as `from_str_radix` takes it. -/
def parse (w : Nat) (t : Text) : Option Nat :=
  let digits := if t.head? = some '+' then t.tail else t
  if digits = [] then none else (readFrom 0 digits).filter (· < 2 ^ w)

section Digits

theorem val_digit : ∀ n : Fin 16, val (digit n).toNat = some n.val := by decide

theorem utf8_digit : ∀ n : Fin 16,
    String.utf8EncodeChar (digit n) = [UInt8.ofNat (digit n).toNat] := by decide

theorem toNat_digit : ∀ n : Fin 16, (digit n).toNat < 256 := by decide

theorem lower_digit : ∀ n : Fin 16, (digit n).toLower = digit n := by decide

theorem digit_zero : ∀ n : Fin 16, digit n = '0' ↔ n = 0 := by decide

theorem digit_plus : ∀ n : Fin 16, digit n ≠ '+' := by decide

variable (d : UInt8)

def hi : Fin 16 := ⟨d.toNat / 16, by have := d.toNat_lt; omega⟩

def lo : Fin 16 := ⟨d.toNat % 16, by omega⟩

theorem pair_eq : pair d = [digit (hi d), digit (lo d)] := rfl

theorem hi_lo : 16 * (hi d).val + (lo d).val = d.toNat := by
  simp only [hi, lo]
  omega

end Digits

@[simp] theorem encode_nil : encode [] = [] := rfl

@[simp] theorem encode_cons (d : UInt8) (b : Bytes) :
    encode (d :: b) = digit (hi d) :: digit (lo d) :: encode b := rfl

@[simp] theorem encode_append (a b : Bytes) : encode (a ++ b) = encode a ++ encode b := by
  simp [encode]

@[simp] theorem length_encode (b : Bytes) : (encode b).length = 2 * b.length := by
  induction b with
  | nil => rfl
  | cons d b ih =>
    simp only [encode_cons, List.length_cons, ih]
    omega

theorem take_encode (b : Bytes) (n : Nat) : (encode b).take (2 * n) = encode (b.take n) := by
  induction b generalizing n with
  | nil => simp
  | cons d b ih =>
    cases n with
    | zero => rfl
    | succ n => simp [Nat.mul_succ, ih]

theorem drop_encode (b : Bytes) (n : Nat) : (encode b).drop (2 * n) = encode (b.drop n) := by
  induction b generalizing n with
  | nil => simp
  | cons d b ih =>
    cases n with
    | zero => rfl
    | succ n => simp [Nat.mul_succ, ih]

@[simp] theorem lower_encode (b : Bytes) : Text.lower (encode b) = encode b := by
  induction b with
  | nil => rfl
  | cons d b ih =>
    have hrest : List.map Char.toLower (encode b) = encode b := ih
    simp [Text.lower, lower_digit, hrest]

theorem utf8_encode_cons (d : UInt8) (b : Bytes) :
    utf8 (encode (d :: b)) =
      UInt8.ofNat (digit (hi d)).toNat :: UInt8.ofNat (digit (lo d)).toNat :: utf8 (encode b) := by
  simp [utf8, utf8_digit]

@[simp] theorem length_utf8_encode (b : Bytes) : (utf8 (encode b)).length = 2 * b.length := by
  induction b with
  | nil => rfl
  | cons d b ih =>
    simp only [utf8_encode_cons, List.length_cons, ih]
    omega

theorem valAt_digit (n : Fin 16) (index : Nat) :
    valAt (UInt8.ofNat (digit n).toNat) index = .ok n.val := by
  have hcode : (UInt8.ofNat (digit n).toNat).toNat = (digit n).toNat := by
    have := toNat_digit n
    simp only [UInt8.toNat_ofNat']
    omega
  rw [valAt, hcode, val_digit]

theorem decodeFrom_encode (b : Bytes) (index : Nat) :
    decodeFrom index (utf8 (encode b)) = .ok b := by
  induction b generalizing index with
  | nil => rfl
  | cons d b ih =>
    rw [utf8_encode_cons]
    simp only [decodeFrom, valAt_digit, ih]
    change Except.ok (UInt8.ofNat (16 * (hi d).val + (lo d).val) :: b) = _
    rw [hi_lo, UInt8.ofNat_toNat]

/-- What was written in hexadecimal reads back. -/
theorem decode_encode (b : Bytes) : decode (encode b) = .ok b := by
  simp [decode, decodeFrom_encode]

theorem not_isWhitespace_digit : ∀ n : Fin 16, Text.isWhitespace (digit n) = false := by decide

theorem trim_encode (b : Bytes) : Text.trim (encode b) = encode b := by
  apply Text.trim_of_forall
  intro c hc
  obtain ⟨d, -, hd⟩ := List.mem_flatMap.mp hc
  rw [pair_eq, List.mem_cons, List.mem_singleton] at hd
  rcases hd with rfl | rfl
  · exact not_isWhitespace_digit _
  · exact not_isWhitespace_digit _

theorem utf8_injective {t u : Text} (h : utf8 t = utf8 u) : t = u := by
  apply String.ofList_injective
  apply String.toByteArray_inj.mp
  rw [String.toByteArray_ofList, String.toByteArray_ofList]
  exact congrArg List.toByteArray h

theorem encode_injective {a b : Bytes} (h : encode a = encode b) : a = b := by
  have ha := decode_encode a
  rw [h, decode_encode] at ha
  exact (Except.ok.inj ha).symm

section Decoding

open Checked

theorem val_lt {n m : Nat} (h : val n = some m) : n < 128 := by
  unfold val at h
  split at h
  · omega
  · split at h
    · omega
    · split at h
      · omega
      · cases h

theorem lower_val : ∀ k : Fin 128, ∀ n ∈ val k.val,
    ∃ m : Fin 16, m.val = n ∧ (Char.ofNat k.val).toLower = digit m := by decide

/-- A digit of either case is the digit of its value in lower case. -/
theorem toLower_of_val {c : Char} {n : Nat} (h : val c.toNat = some n) :
    n < 16 ∧ c.toLower = digit n := by
  obtain ⟨m, rfl, hm⟩ := lower_val ⟨c.toNat, val_lt h⟩ n h
  rw [Char.ofNat_toNat] at hm
  exact ⟨m.isLt, hm⟩

/-- A character is its own first byte, or that byte is no digit. -/
theorem utf8EncodeChar_head (c : Char) : ∃ d rest, String.utf8EncodeChar c = d :: rest ∧
    (rest = [] ∧ d.toNat = c.toNat ∨ val d.toNat = none) := by
  have hwide : ∀ n, 192 ≤ n → val (UInt8.ofNat n).toNat = none ∨ 256 ≤ n := by
    intro n hn
    by_cases hlt : n < 256
    · left
      rw [UInt8.toNat_ofNat', Nat.mod_eq_of_lt (by omega)]
      unfold val
      rw [if_neg (by omega), if_neg (by omega), if_neg (by omega)]
    · right
      omega
  unfold String.utf8EncodeChar
  dsimp only
  split
  · next h =>
    refine ⟨_, [], rfl, .inl ⟨rfl, ?_⟩⟩
    rw [UInt8.toNat_ofNat']
    change c.val.toNat % 256 = c.val.toNat
    omega
  · split
    · exact ⟨_, _, rfl, .inr ((hwide _ (by omega)).resolve_right (by omega))⟩
    · split
      · exact ⟨_, _, rfl, .inr ((hwide _ (by omega)).resolve_right (by omega))⟩
      · exact ⟨_, _, rfl, .inr ((hwide _ (by omega)).resolve_right (by omega))⟩

theorem valAt_eq_ok {d : UInt8} {index n : Nat} : valAt d index = .ok n ↔ val d.toNat = some n := by
  unfold valAt
  cases val d.toNat with
  | none => simp
  | some m => simp

/-- Two bytes that decode are the digits of the byte they decode to. -/
theorem decodeFrom_cons_cons {d d' : UInt8} {rest : Bytes} {index : Nat} {b : Bytes}
    (h : decodeFrom index (d :: d' :: rest) = .ok b) :
    ∃ m m' b', val d.toNat = some m ∧ val d'.toNat = some m' ∧
      decodeFrom (index + 2) rest = .ok b' ∧ b = UInt8.ofNat (16 * m + m') :: b' := by
  simp only [decodeFrom, bind_eq_ok, valAt_eq_ok] at h
  obtain ⟨m, hm, m', hm', b', hrest, hb⟩ := h
  exact ⟨m, m', b', hm, hm', hrest, (Except.ok.inj hb).symm⟩

theorem lower_of_decodeFrom : ∀ (t : Text) {index : Nat} {b : Bytes},
    (utf8 t).length % 2 = 0 → decodeFrom index (utf8 t) = .ok b → Text.lower t = encode b
  | [], _, _, _, h => by
    cases h
    rfl
  | [c], _, _, heven, h => by
    obtain ⟨d, rest, hd, hrest⟩ := utf8EncodeChar_head c
    have hutf : utf8 [c] = d :: rest := by simp [utf8, hd]
    rw [hutf] at heven h
    cases rest with
    | nil => simp at heven
    | cons lo rest =>
      obtain ⟨m, m', b', hm, -⟩ := decodeFrom_cons_cons h
      rcases hrest with ⟨hnil, -⟩ | hnone
      · cases hnil
      · rw [hnone] at hm
        cases hm
  | c :: c' :: t, index, b, heven, h => by
    obtain ⟨d, rest, hd, hrest⟩ := utf8EncodeChar_head c
    obtain ⟨d', rest', hd', hrest'⟩ := utf8EncodeChar_head c'
    have hutf : utf8 (c :: c' :: t) = d :: (rest ++ d' :: (rest' ++ utf8 t)) := by
      simp [utf8, hd, hd']
    rw [hutf] at heven h
    cases rest with
    | cons lo rest =>
      obtain ⟨m, m', b', hm, -⟩ := decodeFrom_cons_cons h
      rcases hrest with ⟨hnil, -⟩ | hnone
      · cases hnil
      · rw [hnone] at hm
        cases hm
    | nil =>
      obtain ⟨m, m', b', hm, hm', hdec, rfl⟩ := decodeFrom_cons_cons h
      rcases hrest with ⟨-, hcode⟩ | hnone
      · rcases hrest' with ⟨rfl, hcode'⟩ | hnone
        · obtain ⟨hlt, hc⟩ := toLower_of_val (hcode ▸ hm)
          obtain ⟨hlt', hc'⟩ := toLower_of_val (hcode' ▸ hm')
          have heven' : (utf8 t).length % 2 = 0 := by
            simp only [List.nil_append, List.length_cons] at heven
            omega
          have hlower := lower_of_decodeFrom t heven' hdec
          have hbyte : (UInt8.ofNat (16 * m + m')).toNat = 16 * m + m' := by
            rw [UInt8.toNat_ofNat']
            omega
          have hhi : (hi (UInt8.ofNat (16 * m + m'))).val = m := by
            simp only [hi, hbyte]
            omega
          have hlo : (lo (UInt8.ofNat (16 * m + m'))).val = m' := by
            simp only [lo, hbyte]
            omega
          have hsplit : Text.lower (c :: c' :: t) = c.toLower :: c'.toLower :: Text.lower t := rfl
          rw [hsplit, hc, hc', hlower, encode_cons, hhi, hlo]
        · rw [hnone] at hm'
          cases hm'
      · rw [hnone] at hm
        cases hm

/-- A text that decodes is, in lower case, the way its bytes are written. -/
theorem lower_of_decode {t : Text} {b : Bytes} (h : decode t = .ok b) : Text.lower t = encode b := by
  unfold decode at h
  split at h
  · next heven => exact lower_of_decodeFrom t heven h
  · cases h

/-- No digit is an `x`: what is written in hexadecimal does not begin with `0x`. -/
theorem encode_ne_0x (b : Bytes) (t : Text) : encode b ≠ '0' :: 'x' :: t := by
  intro h
  cases b with
  | nil => cases h
  | cons d b =>
    have hx : ∀ n : Fin 16, digit n ≠ 'x' := by decide
    simp only [encode_cons, List.cons.injEq] at h
    exact hx (lo d) h.2.1

theorem trimStart0x_of_lower {t : Text} {b : Bytes} (h : Text.lower t = encode b) :
    Text.trimStart0x t = t := by
  unfold Text.trimStart0x
  split
  · next t => exact absurd h.symm (encode_ne_0x b (Text.lower t))
  · rfl

theorem trimStart0x_of_decode {t : Text} {b : Bytes} (h : decode t = .ok b) :
    Text.trimStart0x t = t := trimStart0x_of_lower (lower_of_decode h)

theorem strip0x_cases (t : Text) : Text.strip0x t = t ∨ t = '0' :: 'x' :: Text.strip0x t := by
  unfold Text.strip0x
  split
  · exact .inr rfl
  · exact .inl rfl

theorem trimStart0x_eq_strip0x {t : Text} {b : Bytes}
    (h : Text.lower t = '0' :: 'x' :: encode b) : Text.trimStart0x t = Text.strip0x t := by
  unfold Text.trimStart0x Text.strip0x
  split
  · next t => exact trimStart0x_of_lower (@List.append_cancel_left _ ['0', 'x'] _ _ h)
  · rfl

/-- Texts equal up to case stand for the same bytes. -/
theorem decode_eq_of_eqIgnoreAsciiCase {t u : Text} {b c : Bytes}
    (h : Text.eqIgnoreAsciiCase t u = true) (ht : decode (Text.strip0x t) = .ok b)
    (hu : decode (Text.strip0x u) = .ok c) : b = c := by
  rw [Text.eqIgnoreAsciiCase_iff] at h
  have hb := lower_of_decode ht
  have hc := lower_of_decode hu
  rcases strip0x_cases t with ht' | ht' <;> rcases strip0x_cases u with hu' | hu'
  · rw [ht'] at hb
    rw [hu'] at hc
    exact encode_injective (hb.symm.trans (h.trans hc))
  · rw [ht'] at hb
    rw [hu'] at h
    exact absurd (hb.symm.trans h) (encode_ne_0x b _)
  · rw [hu'] at hc
    rw [ht'] at h
    exact absurd (hc.symm.trans h.symm) (encode_ne_0x c _)
  · rw [ht', hu'] at h
    have hsame : Text.lower (Text.strip0x t) = Text.lower (Text.strip0x u) :=
      @List.append_cancel_left _ ['0', 'x'] _ _ h
    exact encode_injective (hb.symm.trans (hsame.trans hc))

/-- The same when one of them may come with several `0x`s. -/
theorem decode_trimStart0x_eq {t u : Text} {b c : Bytes} (h : Text.eqIgnoreAsciiCase t u = true)
    (ht : decode (Text.strip0x t) = .ok b) (hu : decode (Text.trimStart0x u) = .ok c) : b = c := by
  have hlower := (Text.eqIgnoreAsciiCase_iff t u).mp h
  have hb := lower_of_decode ht
  rcases strip0x_cases t with ht' | ht'
  · rw [ht', hlower] at hb
    rw [trimStart0x_of_lower hb] at hu
    exact encode_injective (hb.symm.trans (lower_of_decode hu))
  · rw [ht'] at hlower
    have hprefix : Text.lower u = '0' :: 'x' :: encode b := by
      rw [← hlower, ← hb]
      rfl
    rw [trimStart0x_eq_strip0x hprefix] at hu
    exact decode_eq_of_eqIgnoreAsciiCase h ht hu

end Decoding

section Numbers

theorem readFrom_encode (n : Nat) (b : Bytes) :
    readFrom n (encode b) = some (b.foldl (fun n d => 256 * n + d.toNat) n) := by
  induction b generalizing n with
  | nil => rfl
  | cons d b ih =>
    have hstep : 16 * (16 * n + (hi d).val) + (lo d).val = 256 * n + d.toNat := by
      have := hi_lo d
      omega
    simp only [readFrom, encode_cons, List.foldlM_cons, val_digit, Option.map_some] at *
    simp only [bind, Option.bind, hstep, List.foldl_cons]
    exact ih _

theorem readFrom_zero_dropWhile (t : Text) :
    readFrom 0 (t.dropWhile (· = '0')) = readFrom 0 t := by
  induction t with
  | nil => rfl
  | cons c t ih =>
    by_cases hc : c = '0'
    · subst hc
      simpa [readFrom, val] using ih
    · simp [hc]

theorem ne_plus_of_mem_encode {b : Bytes} {c : Char} (h : c ∈ encode b) : c ≠ '+' := by
  induction b with
  | nil => cases h
  | cons d b ih =>
    simp only [encode_cons, List.mem_cons] at h
    rcases h with rfl | rfl | h
    · exact digit_plus (hi d)
    · exact digit_plus (lo d)
    · exact ih h

/-- Leading zeros do not count, and a number too wide reads as none. -/
theorem parse_encode (w : Nat) (b : Bytes) :
    (parse w ((encode b).dropWhile (· = '0'))).getD 0 =
      if Bytes.ofBigEndian b < 2 ^ w then Bytes.ofBigEndian b else 0 := by
  have hread : readFrom 0 ((encode b).dropWhile (· = '0')) = some (Bytes.ofBigEndian b) := by
    rw [readFrom_zero_dropWhile, readFrom_encode]
    rfl
  have hplus : ((encode b).dropWhile (· = '0')).head? ≠ some '+' := by
    intro h
    have hmem := List.mem_of_mem_head? (Option.mem_def.mpr h)
    exact ne_plus_of_mem_encode ((List.dropWhile_sublist _).mem hmem) rfl
  simp only [parse, if_neg hplus]
  by_cases hnil : (encode b).dropWhile (· = '0') = []
  · rw [hnil] at hread ⊢
    have hzero : Bytes.ofBigEndian b = 0 := (Option.some.inj hread).symm
    simp [hzero]
  · rw [if_neg hnil, hread]
    by_cases hlt : Bytes.ofBigEndian b < 2 ^ w <;> simp [Option.filter, hlt]

end Numbers

end Hex

end Lib
