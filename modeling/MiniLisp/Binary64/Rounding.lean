/-
# Rounding to the nearest number

Every operation on numbers is carried out exactly and rounded once.  An exact result is
given as a fraction of whole numbers, in units of `2 ^ -1074`; the number nearest to it
is found by scaling the fraction so that its quotient has fifty-three bits (fewer for
the evenly spaced magnitudes near zero) and rounding that quotient.  A tie goes to the
even quotient, which is the even rank.
-/
import MiniLisp.Binary64.Basic

namespace MiniLisp

/-- The quotient rounded to the nearest whole number, a half to the even one. -/
def roundDiv (num den : Nat) : Nat :=
  let quotient := num / den
  let twice := 2 * (num % den)
  if twice < den ∨ twice = den ∧ quotient % 2 = 0 then quotient else quotient + 1

namespace Binary64

/-- The power of two that a fraction is divided by before it is rounded. -/
def scaleOf (num den : Nat) : Nat := (num / den).log2 - 52

/-- The rank of the magnitude nearest to `num / den` units; it is at least `rankCount`
when the fraction is nearer to the bound of the finite magnitudes than to the greatest
of them, or as near. -/
def nearestRank (num den : Nat) : Nat :=
  let scale := scaleOf num den
  scale * Nat.pow 2 52 + roundDiv num (den * Nat.pow 2 scale)

/-- The number nearest to a sign and `num / den` units. -/
def nearest (negative : Bool) (num den : Nat) : Binary64 :=
  ofRank negative (nearestRank num den)

end Binary64

/-! ### Rounding a quotient -/

theorem roundDiv_mul (n : Nat) {den : Nat} (h : 0 < den) : roundDiv (n * den) den = n := by
  have hdiv : n * den / den = n := Nat.mul_div_cancel n h
  have hmod : n * den % den = 0 := Nat.mul_mod_left n den
  simp [roundDiv, hdiv, hmod, h]

theorem div_le_roundDiv (num den : Nat) : num / den ≤ roundDiv num den := by
  unfold roundDiv
  simp only
  split <;> omega

theorem roundDiv_le_div_add_one (num den : Nat) : roundDiv num den ≤ num / den + 1 := by
  unfold roundDiv
  simp only
  split <;> omega

end MiniLisp
