import Mathlib.Data.Nat.Size
import Mathlib.Tactic.Linarith
import Mathlib.Tactic.Ring

namespace Lib.Ieee

/-- A binary floating point format: the bits of a full mantissa, and the exponents of the last place
of the smallest and the largest numbers. -/
structure Format where
  prec : ℕ
  emin : ℤ
  emax : ℤ
  deriving DecidableEq

def binary32 : Format := ⟨24, -149, 104⟩

def binary64 : Format := ⟨53, -1074, 971⟩

/-- A finite number, `mant * 2 ^ exp` with a sign.  Its mantissa is full unless its exponent is the
least. -/
structure Finite (f : Format) where
  neg : Bool
  mant : ℕ
  exp : ℤ
  mant_lt : mant < 2 ^ f.prec
  emin_le : f.emin ≤ exp
  le_emax : exp ≤ f.emax
  full : exp = f.emin ∨ 2 ^ (f.prec - 1) ≤ mant
  deriving DecidableEq

inductive Number (f : Format)
  | finite (x : Finite f)
  | infinite (neg : Bool)
  | nan
  deriving DecidableEq

variable {f g : Format}

/-- The number with the given last place, infinite where it is too large. -/
def place (f : Format) (neg : Bool) (mant : ℕ) (exp : ℤ) : Number f :=
  if h : mant < 2 ^ f.prec ∧ f.emin ≤ exp ∧ exp ≤ f.emax ∧
      (exp = f.emin ∨ 2 ^ (f.prec - 1) ≤ mant) then
    .finite ⟨neg, mant, exp, h.1, h.2.1, h.2.2.1, h.2.2.2⟩
  else .infinite neg

/-- `m / 2 ^ k` to the nearest, and of two as near to the even one. -/
def shiftRight (m k : ℕ) : ℕ :=
  let q := m / 2 ^ k
  let r := m % 2 ^ k
  if 2 ^ k < 2 * r ∨ 2 * r = 2 ^ k ∧ q % 2 = 1 then q + 1 else q

/-- The exponent of the last place of `m * 2 ^ e` in the format. -/
def lastPlace (f : Format) (m : ℕ) (e : ℤ) : ℤ :=
  if m = 0 then f.emin else max (e + m.size - f.prec) f.emin

/-- `m * 2 ^ e`, rounded to the format. -/
def round (f : Format) (neg : Bool) (m : ℕ) (e : ℤ) : Number f :=
  let t := lastPlace f m e
  if t ≤ e then place f neg (m * 2 ^ (e - t).toNat) t
  else
    let q := shiftRight m (t - e).toNat
    if q = 2 ^ f.prec then place f neg (2 ^ (f.prec - 1)) (t + 1) else place f neg q t

/-- One format's number in another. -/
def Number.cast (g : Format) : Number f → Number g
  | .finite x => round g x.neg x.mant x.exp
  | .infinite neg => .infinite neg
  | .nan => .nan

def Number.ofInt (f : Format) (n : ℤ) : Number f := round f (decide (n < 0)) n.natAbs 0

theorem place_self (x : Finite f) : place f x.neg x.mant x.exp = .finite x :=
  dif_pos ⟨x.mant_lt, x.emin_le, x.le_emax, x.full⟩

theorem shiftRight_mul (m k : ℕ) : shiftRight (m * 2 ^ k) k = m := by
  have hpos := Nat.two_pow_pos k
  rw [shiftRight, Nat.mul_div_cancel _ hpos, Nat.mul_mod_left]
  simp [hpos.ne]

/-- The size of a mantissa that is a multiple of another's. -/
theorem size_mul_two_pow {m : ℕ} (h : m ≠ 0) (k : ℕ) : (m * 2 ^ k).size = m.size + k := by
  rw [← Nat.shiftLeft_eq, Nat.size_shiftLeft h]

theorem Finite.exp_of_zero {x : Finite f} (h : x.mant = 0) : x.exp = f.emin := by
  refine x.full.resolve_right ?_
  rw [h]
  exact not_le.mpr (Nat.two_pow_pos _)

/-- The last place of a number of the format is where it has it. -/
theorem lastPlace_self (x : Finite f) (k : ℕ) :
    lastPlace f (x.mant * 2 ^ k) (x.exp - k) = x.exp := by
  have hemin := x.emin_le
  unfold lastPlace
  by_cases hzero : x.mant = 0
  · rw [hzero, Nat.zero_mul, if_pos rfl, Finite.exp_of_zero hzero]
  · have hne : x.mant * 2 ^ k ≠ 0 := Nat.mul_ne_zero hzero (Nat.two_pow_pos k).ne'
    have hsize : x.mant.size ≤ f.prec := Nat.size_le.mpr x.mant_lt
    rw [if_neg hne, size_mul_two_pow hzero]
    push_cast
    rcases x.full with hexp | hfull
    · omega
    · have hlast : f.prec - 1 < x.mant.size := Nat.lt_size.mpr hfull
      omega

/-- What the format has a place for is not rounded. -/
theorem round_mul (x : Finite f) (k : ℕ) :
    round f x.neg (x.mant * 2 ^ k) (x.exp - k) = .finite x := by
  rw [round, lastPlace_self]
  dsimp only
  by_cases hk : k = 0
  · subst hk
    simp [place_self]
  · rw [if_neg (by omega), show (x.exp - (x.exp - k)).toNat = k by omega, shiftRight_mul,
      if_neg x.mant_lt.ne, place_self]

/-- The same where the mantissa is to be filled up. -/
theorem round_of_mul (y : Finite g) {m : ℕ} {e : ℤ} (k : ℕ) (hm : y.mant = m * 2 ^ k)
    (he : y.exp = e - k) : round g y.neg m e = .finite y := by
  have hlast : lastPlace g m e = y.exp := by
    have hself := lastPlace_self y 0
    rw [pow_zero, Nat.mul_one, hm] at hself
    by_cases hzero : m = 0
    · rw [hzero, lastPlace, if_pos rfl]
      exact (Finite.exp_of_zero (by rw [hm, hzero, Nat.zero_mul])).symm
    · have hne : m * 2 ^ k ≠ 0 := Nat.mul_ne_zero hzero (Nat.two_pow_pos k).ne'
      rw [lastPlace, if_neg hne, size_mul_two_pow hzero] at hself
      rw [lastPlace, if_neg hzero]
      push_cast at hself
      omega
  rw [round, hlast]
  dsimp only
  rw [if_pos (by omega), show (e - y.exp).toNat = k by omega, ← hm, place_self]

/-- Every number of the one format is one of the other. -/
structure Wider (f g : Format) : Prop where
  prec_pos : 0 < f.prec
  prec_le : f.prec ≤ g.prec
  emin_le : g.emin + g.prec ≤ f.emin
  emax_le : f.emax ≤ g.emax

theorem wider_binary64 : Wider binary32 binary64 := ⟨by decide, by decide, by decide, by decide⟩

/-- A number of the narrower format in the wider. -/
theorem exists_wider (h : Wider f g) (x : Finite f) : ∃ (y : Finite g) (k : ℕ), y.neg = x.neg ∧
    y.mant = x.mant * 2 ^ k ∧ y.exp = x.exp - k := by
  obtain ⟨hpos, hprec, hemin, hemax⟩ := h
  have hxmin := x.emin_le
  have hxmax := x.le_emax
  by_cases hzero : x.mant = 0
  · refine ⟨⟨x.neg, 0, g.emin, Nat.two_pow_pos _, le_rfl, by omega, .inl rfl⟩,
      (x.exp - g.emin).toNat, rfl, ?_, ?_⟩
    · rw [hzero, Nat.zero_mul]
    · dsimp only
      omega
  · have hsize : x.mant.size ≤ f.prec := Nat.size_le.mpr x.mant_lt
    have hsizepos : 0 < x.mant.size := Nat.size_pos.mpr (Nat.pos_of_ne_zero hzero)
    obtain ⟨k, hk⟩ := Nat.exists_eq_add_of_le (hsize.trans hprec)
    have hfill : (x.mant * 2 ^ k).size = g.prec := by rw [size_mul_two_pow hzero, hk]
    have hfull : 2 ^ (g.prec - 1) ≤ x.mant * 2 ^ k := Nat.lt_size.mp (by omega)
    exact ⟨⟨x.neg, x.mant * 2 ^ k, x.exp - k, Nat.size_le.mp hfill.le, by omega, by omega,
      .inr hfull⟩, k, rfl, rfl, rfl⟩

/-- A number comes back from a wider format as it went. -/
theorem cast_cast (h : Wider f g) (x : Finite f) :
    ∃ y : Finite g, (Number.finite x).cast g = .finite y ∧ (Number.finite y).cast f = .finite x := by
  obtain ⟨y, k, hneg, hmant, hexp⟩ := exists_wider h x
  refine ⟨y, ?_, ?_⟩
  · rw [Number.cast, ← hneg]
    exact round_of_mul y k hmant hexp
  · rw [Number.cast, hneg, hmant, hexp]
    exact round_mul x k

end Lib.Ieee
