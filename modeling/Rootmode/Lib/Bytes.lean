import Mathlib.Data.List.Basic
import Mathlib.Tactic.Ring
import Mathlib.Tactic.Positivity

namespace Lib

abbrev Bytes := List UInt8

namespace Bytes

/-- The `w` low bytes of `n`, most significant first. -/
def bigEndian : Nat → Nat → Bytes
  | 0, _ => []
  | w + 1, n => bigEndian w (n / 256) ++ [UInt8.ofNat (n % 256)]

def ofBigEndian (b : Bytes) : Nat := b.foldl (fun n d => 256 * n + d.toNat) 0

def ascii (s : String) : Bytes := s.toList.map (fun c => UInt8.ofNat c.toNat)

@[simp] theorem length_bigEndian (w n : Nat) : (bigEndian w n).length = w := by
  induction w generalizing n with
  | zero => rfl
  | succ w ih => simp [bigEndian, ih]

@[simp] theorem ofBigEndian_append_singleton (b : Bytes) (d : UInt8) :
    ofBigEndian (b ++ [d]) = 256 * ofBigEndian b + d.toNat := by
  simp [ofBigEndian]

/-- Reading back what was written. -/
theorem ofBigEndian_bigEndian (w n : Nat) : ofBigEndian (bigEndian w n) = n % 256 ^ w := by
  induction w generalizing n with
  | zero => simp [bigEndian, ofBigEndian, Nat.mod_one]
  | succ w ih =>
    have hlow : (UInt8.ofNat (n % 256)).toNat = n % 256 := by
      simp [UInt8.toNat_ofNat']
    simp only [bigEndian, ofBigEndian_append_singleton, ih, hlow]
    rw [pow_succ, Nat.mul_comm (256 ^ w), Nat.mod_mul]
    omega

/-- Writing back what was read. -/
theorem bigEndian_ofBigEndian (b : Bytes) : bigEndian b.length (ofBigEndian b) = b := by
  induction b using List.reverseRecOn with
  | nil => rfl
  | append_singleton b d ih =>
    have hd := d.toNat_lt
    rw [List.length_append, List.length_singleton, bigEndian, ofBigEndian_append_singleton]
    rw [show (256 * ofBigEndian b + d.toNat) / 256 = ofBigEndian b by omega, ih,
      show (256 * ofBigEndian b + d.toNat) % 256 = d.toNat by omega, UInt8.ofNat_toNat]

theorem ofBigEndian_lt (b : Bytes) : ofBigEndian b < 256 ^ b.length := by
  have h := ofBigEndian_bigEndian b.length (ofBigEndian b)
  rw [bigEndian_ofBigEndian] at h
  rw [h]
  exact Nat.mod_lt _ (by positivity)

theorem bigEndian_injective {w m n : Nat} (hm : m < 256 ^ w) (hn : n < 256 ^ w)
    (h : bigEndian w m = bigEndian w n) : m = n := by
  have hread := congrArg ofBigEndian h
  rwa [ofBigEndian_bigEndian, ofBigEndian_bigEndian, Nat.mod_eq_of_lt hm,
    Nat.mod_eq_of_lt hn] at hread

/-- A number that fits in `w` bytes is written in more with zeros before it. -/
theorem bigEndian_add (k w : Nat) {n : Nat} (h : n < 256 ^ w) :
    bigEndian (k + w) n = List.replicate k 0 ++ bigEndian w n := by
  induction w generalizing n with
  | zero =>
    have hn : n = 0 := by simpa using h
    subst hn
    induction k with
    | zero => rfl
    | succ k ih =>
      simp only [Nat.add_zero, bigEndian, List.append_nil] at ih ⊢
      rw [ih, List.replicate_succ']
      rfl
  | succ w ih =>
    have hdiv : n / 256 < 256 ^ w := by
      rw [pow_succ] at h
      omega
    rw [← Nat.add_assoc, bigEndian, bigEndian, ih hdiv, List.append_assoc]

/-- The `i`th of equally long pieces. -/
theorem take_drop_flatMap {α : Type} {f : α → Bytes} {k : Nat} (hf : ∀ x, (f x).length = k)
    {l : List α} {i : Nat} {x : α} (h : l[i]? = some x) :
    ((l.flatMap f).drop (k * i)).take k = f x := by
  induction l generalizing i with
  | nil => simp at h
  | cons y l ih =>
    cases i with
    | zero =>
      have hy : y = x := by simpa using h
      subst hy
      simp [hf y]
    | succ i =>
      rw [List.flatMap_cons, Nat.mul_succ, Nat.add_comm, ← List.drop_drop,
        List.drop_left' (hf y)]
      exact ih (by simpa using h)

end Bytes

end Lib
