import Mathlib.Data.Rat.Defs
import Mathlib.Algebra.Order.Field.Rat
import Rootmode.Lib.Text

namespace Lib.Decimal

open Text

def digit (c : Char) : ℕ := c.toNat - 48

def ofDigits (t : Text) : ℕ := t.foldl (fun n c => 10 * n + digit c) 0

/-- What a sign says, and what it stands before. -/
def signed : Text → Bool × Text
  | '-' :: t => (true, t)
  | '+' :: t => (false, t)
  | t => (false, t)

/-- A power of ten after its mark, none where nothing is. -/
def exponent : Text → Option ℤ
  | [] => some 0
  | c :: t =>
    let (negative, digits) := signed t
    if (c = 'e' ∨ c = 'E') ∧ digits ≠ [] ∧ digits.all Char.isDigit = true then
      some (if negative then -ofDigits digits else ofDigits digits)
    else none

/-- The number a text writes: digits with a point among them or none, and a power of ten. -/
def parse (t : Text) : Option ℚ :=
  let (negative, t) := signed t
  let whole := t.takeWhile Char.isDigit
  let t := t.dropWhile Char.isDigit
  let fraction := if t.head? = some '.' then t.tail.takeWhile Char.isDigit else []
  let t := if t.head? = some '.' then t.tail.dropWhile Char.isDigit else t
  if whole ++ fraction = [] then none
  else (exponent t).map fun power : ℤ =>
    let size := (ofDigits (whole ++ fraction) : ℚ) * (10 : ℚ) ^ (power - (fraction.length : ℤ))
    if negative then -size else size

example : parse "0.0000025".toList = some (1 / 400_000) := by decide +kernel

end Lib.Decimal
