/-
# Decimals

A decimal is a sign, a whole coefficient and a power of ten.  This file reads a decimal
from the run of characters that spells it and rounds it to the nearest number, so the
number that is read depends on nothing but the sign and the exact value of the spelling.
-/
import MiniLisp.Binary64.Rounding

namespace MiniLisp

/-- The decimal `± coefficient * 10 ^ exponent`. -/
structure Decimal where
  /-- Whether a minus sign is written. -/
  negative : Bool
  /-- The digits as a whole number. -/
  coefficient : Nat
  /-- The power of ten that the coefficient is multiplied by. -/
  exponent : Int
deriving DecidableEq, Repr

namespace Decimal

/-- A sign at the head of a run, and the run without it. -/
def splitSign : List Char → Bool × List Char
  | '-' :: rest => (true, rest)
  | '+' :: rest => (false, rest)
  | run => (false, run)

/-- The decimal of a sign and the digits before and after the point. -/
def ofDigits (negative : Bool) (whole fraction : List Char) : Decimal :=
  ⟨negative, Nat.ofDigitChars 10 (whole ++ fraction) 0, -(fraction.length : Int)⟩

/-- The decimal that a run of digits with at most one point spells, if it is such a run
and holds a digit. -/
def ofUnsigned? (negative : Bool) (run : List Char) : Option Decimal :=
  let whole := run.takeWhile Char.isDigit
  match run.dropWhile Char.isDigit with
  | [] => if whole.isEmpty then none else some (ofDigits negative whole [])
  | point :: fraction =>
    if point = '.' ∧ fraction.all Char.isDigit ∧ ¬ (whole ++ fraction).isEmpty then
      some (ofDigits negative whole fraction)
    else none

/-- The decimal that a run of characters spells: an optional sign, then digits, digits with
a point among, before or after them, and nothing else. -/
def ofRun? (run : List Char) : Option Decimal :=
  ofUnsigned? (splitSign run).1 (splitSign run).2

/-! ### The nearest number -/

/-- The step between the multiples of `10 ^ exponent`, as a fraction of units of `2 ^ -1074`:
its numerator. -/
def stepNum (exponent : Int) : Nat := Nat.pow 10 exponent.toNat * Nat.pow 2 Binary64.unitExponent

/-- The step between the multiples of `10 ^ exponent`, as a fraction of units of `2 ^ -1074`:
its denominator. -/
def stepDen (exponent : Int) : Nat := Nat.pow 10 (-exponent).toNat

/-- The rank nearest to `coefficient * 10 ^ exponent`. -/
def nearestRank (coefficient : Nat) (exponent : Int) : Nat :=
  Binary64.nearestRank (coefficient * stepNum exponent) (stepDen exponent)

/-- The number nearest to a decimal.  A decimal beyond the finite numbers gives an infinity
and one nearer to zero than to any other number a zero, both of its sign. -/
def toBinary64 (d : Decimal) : Binary64 :=
  Binary64.ofRank d.negative (nearestRank d.coefficient d.exponent)

end Decimal

end MiniLisp
