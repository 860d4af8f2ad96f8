/-
# Writing a decimal

Two ways to write a decimal.  The *plain* form never has an exponent: digits, and after
a point the rest of the digits if there are any.  The *inspected* form always shows that a
number is not a whole number of some other kind: it has a point with a digit on either
side, or an exponent when the number is very large or very small.
-/
import MiniLisp.Decimal.Basic

namespace MiniLisp.Decimal

/-- The sign as it is written. -/
def sign (d : Decimal) : List Char := if d.negative then ['-'] else []

/-- The digits of the coefficient. -/
def digits (d : Decimal) : List Char := Nat.toDigits 10 d.coefficient

/-- The number of digits after the point. -/
def places (d : Decimal) : Nat := (-d.exponent).toNat

/-- The digits of the decimal written without an exponent, as if there were no point:
zeros in front make sure that one digit stands before the point. -/
def row (d : Decimal) : List Char :=
  let digits := d.digits ++ List.replicate d.exponent.toNat '0'
  List.replicate (d.places + 1 - digits.length) '0' ++ digits

/-- The digits before the point. -/
def whole (d : Decimal) : List Char := d.row.take (d.row.length - d.places)

/-- The digits after the point. -/
def fraction (d : Decimal) : List Char := d.row.drop (d.row.length - d.places)

/-- The decimal without an exponent, with a point only if digits follow it. -/
def plain (d : Decimal) : List Char :=
  d.sign ++ d.whole ++ (if d.fraction.isEmpty then [] else '.' :: d.fraction)

/-- The power of ten of the first digit. -/
def magnitude (d : Decimal) : Int := d.exponent + d.digits.length - 1

/-- The decimal with a point and a digit on either side of it. -/
def pointed (d : Decimal) : List Char :=
  d.sign ++ d.whole ++ '.' :: (if d.fraction.isEmpty then ['0'] else d.fraction)

/-- The decimal with one digit before the point and a signed exponent of two digits at
least. -/
def scientific (d : Decimal) : List Char :=
  let power := Nat.toDigits 10 d.magnitude.natAbs
  d.sign ++ d.digits.take 1 ++
    (if d.digits.length ≤ 1 then [] else '.' :: d.digits.drop 1) ++
    'e' :: (if d.magnitude < 0 then '-' else '+') ::
    (List.replicate (2 - power.length) '0' ++ power)

/-- The inspected form: with a point as long as the first digit has a power from `-4` to
`15`, else with an exponent. -/
def inspected (d : Decimal) : List Char :=
  if -4 ≤ d.magnitude ∧ d.magnitude < 16 then d.pointed else d.scientific

end MiniLisp.Decimal
