/-
# The shortest decimal of a number

Among the decimals that read back as a finite number we choose one with the fewest
digits, and of those the nearest to the number, a tie going to the even last digit.  The
decimals with few digits are the multiples of a high power of ten, and these grids are
nested; so the search goes from a grid that is too coarse to finer ones and stops at the
first that holds a decimal reading back.  On each grid it is enough to look at the two
multiples around the number.
-/
import MiniLisp.Decimal.Basic

namespace MiniLisp.Decimal

/-- Of the two multiples of `10 ^ exponent` around the magnitude at `rank`, the one that
reads back as that magnitude; if both do, the nearer one, and the even one of two that are
equally near. -/
def onGrid? (rank : Nat) (exponent : Int) : Option Nat :=
  let scaled := Binary64.units rank * stepDen exponent
  let step := stepNum exponent
  let below := scaled / step
  let twice := 2 * (scaled % step)
  if nearestRank below exponent = rank then
    if nearestRank (below + 1) exponent = rank ∧
        ¬ (twice < step ∨ twice = step ∧ below % 2 = 0) then some (below + 1)
    else some below
  else if nearestRank (below + 1) exponent = rank then some (below + 1)
  else none

/-- The first of the next `steps` grids, from coarse to fine, with a multiple that reads back,
and that multiple. -/
def search? (negative : Bool) (rank : Nat) : (steps : Nat) → (exponent : Int) → Option Decimal
  | 0, _ => none
  | steps + 1, exponent =>
    ((onGrid? rank exponent).map fun coefficient => ⟨negative, coefficient, exponent⟩).orElse
      fun _ => search? negative rank steps (exponent - 1)

/-- A power of ten above the magnitude at `rank`, by about a factor of ten at least and a
thousand at most: `30103 / 100000` is a little more than the decimal logarithm of two. -/
def coarsest (rank : Nat) : Int :=
  (((Binary64.units rank).log2 : Int) - 1073) * 30103 / 100000 + 2

/-- The decimal that is the number of a sign and a rank exactly. -/
def exact (negative : Bool) (rank : Nat) : Decimal :=
  ⟨negative, Binary64.units rank * Nat.pow 5 Binary64.unitExponent,
    -(Binary64.unitExponent : Int)⟩

/-- The same decimal value without zeros at the end of the coefficient. -/
def strip (d : Decimal) : Decimal :=
  if d.coefficient = 0 then ⟨d.negative, 0, 0⟩
  else if d.coefficient % 10 = 0 then strip ⟨d.negative, d.coefficient / 10, d.exponent + 1⟩
  else d
termination_by d.coefficient
decreasing_by omega

/-- The shortest decimal that reads back as the finite number of a sign and a rank.
Seventeen digits are always enough, so twenty-four grids are; should none of them do, the
exact decimal reads back. -/
def shortest (negative : Bool) (rank : Nat) : Decimal :=
  strip ((search? negative rank 24 (coarsest rank)).getD (exact negative rank))

end MiniLisp.Decimal
