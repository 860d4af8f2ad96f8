/-
# Rounding depends on the value only

The number nearest to a fraction is the same for all ways to write the fraction, and a
magnitude that is a number already is rounded to itself.
-/
import Mathlib.Tactic.Lemma
import MiniLisp.Binary64.Rounding

namespace MiniLisp

lemma roundDiv_mul_right (num den : Nat) {k : Nat} (hk : 0 < k) :
    roundDiv (num * k) (den * k) = roundDiv num den := by
  have hhalf : ∀ m n : Nat, 2 * (m * k) < n * k ↔ 2 * m < n := by
    intro m n
    rw [← Nat.mul_assoc]
    exact Nat.mul_lt_mul_right hk
  have htie : ∀ m n : Nat, 2 * (m * k) = n * k ↔ 2 * m = n := by
    intro m n
    rw [← Nat.mul_assoc]
    exact Nat.mul_left_inj (Nat.ne_of_gt hk)
  simp only [roundDiv, Nat.mul_div_mul_right _ _ hk, Nat.mul_mod_mul_right, hhalf, htie]

namespace Binary64

lemma scaleOf_mul_right (num den : Nat) {k : Nat} (hk : 0 < k) :
    scaleOf (num * k) (den * k) = scaleOf num den := by
  rw [scaleOf, Nat.mul_div_mul_right _ _ hk, scaleOf]

lemma nearestRank_mul_right (num den : Nat) {k : Nat} (hk : 0 < k) :
    nearestRank (num * k) (den * k) = nearestRank num den := by
  simp only [nearestRank, scaleOf_mul_right num den hk]
  rw [Nat.mul_right_comm den k, roundDiv_mul_right _ _ hk]

/-- Equal fractions have the same nearest number. -/
theorem nearestRank_congr {num den num' den' : Nat} (hden : 0 < den) (hden' : 0 < den')
    (h : num * den' = num' * den) : nearestRank num den = nearestRank num' den' := by
  rw [← nearestRank_mul_right num den hden', h, Nat.mul_comm den den',
    nearestRank_mul_right num' den' hden]

/-! ### Magnitudes -/

lemma units_of_lt {rank : Nat} (h : rank < Nat.pow 2 52) : units rank = rank := by
  rw [units, if_pos h]

/-- From `2 ^ 52` on a place is a power of two and a magnitude of fifty-three bits that it
multiplies. -/
lemma units_add (exponent : Nat) {place : Nat} (h : place < Nat.pow 2 52) :
    units ((exponent + 1) * Nat.pow 2 52 + place) =
      (Nat.pow 2 52 + place) * Nat.pow 2 exponent := by
  have hpos : 0 < Nat.pow 2 52 := by decide
  have hge : ¬ (exponent + 1) * Nat.pow 2 52 + place < Nat.pow 2 52 := by
    rw [Nat.succ_mul]
    omega
  rw [units, if_neg hge, Nat.mul_comm (exponent + 1), Nat.mul_add_mod, Nat.mod_eq_of_lt h,
    Nat.mul_add_div hpos, Nat.div_eq_of_lt h, Nat.add_zero, Nat.add_sub_cancel]

lemma scaleOf_of_lt {rank : Nat} (h : rank < Nat.pow 2 52) : scaleOf rank 1 = 0 := by
  rw [scaleOf, Nat.div_one]
  rcases Nat.eq_zero_or_pos rank with rfl | hpos
  · rfl
  · have hlog : rank.log2 < 52 := (Nat.log2_lt (Nat.ne_of_gt hpos)).2 h
    omega

lemma scaleOf_add (exponent : Nat) {place : Nat} (h : place < Nat.pow 2 52) :
    scaleOf ((Nat.pow 2 52 + place) * Nat.pow 2 exponent) 1 = exponent := by
  have hne : (Nat.pow 2 52 + place) * Nat.pow 2 exponent ≠ 0 := by
    have hpos : 0 < Nat.pow 2 exponent := Nat.pow_pos (by decide)
    exact Nat.ne_of_gt (Nat.mul_pos (by omega) hpos)
  -- The first factor has fifty-three bits.
  have hlog : ((Nat.pow 2 52 + place) * Nat.pow 2 exponent).log2 = 52 + exponent := by
    rw [Nat.log2_eq_iff hne, Nat.pow_add, Nat.add_right_comm, Nat.pow_add]
    constructor
    · exact Nat.mul_le_mul_right _ (Nat.le_add_right _ _)
    · refine Nat.mul_lt_mul_of_pos_right ?_ (Nat.pow_pos (by decide))
      show Nat.pow 2 52 + place < 2 ^ 52 * 2
      rw [Nat.mul_two]
      exact Nat.add_lt_add_left h _
  rw [scaleOf, Nat.div_one, hlog, Nat.add_sub_cancel_left]

/-- The magnitude at a place is nearest to itself. -/
theorem nearestRank_units (rank : Nat) : nearestRank (units rank) 1 = rank := by
  by_cases h : rank < Nat.pow 2 52
  · rw [units_of_lt h, nearestRank, scaleOf_of_lt h]
    show 0 * _ + roundDiv rank 1 = rank
    rw [Nat.zero_mul, Nat.zero_add]
    simpa using roundDiv_mul rank Nat.zero_lt_one
  · obtain ⟨exponent, place, hplace, rfl⟩ : ∃ exponent place, place < Nat.pow 2 52 ∧
        rank = (exponent + 1) * Nat.pow 2 52 + place := by
      have hpos : 0 < Nat.pow 2 52 := by decide
      have hdiv : 0 < rank / Nat.pow 2 52 := Nat.div_pos (Nat.le_of_not_lt h) hpos
      refine ⟨rank / Nat.pow 2 52 - 1, rank % Nat.pow 2 52, Nat.mod_lt _ hpos, ?_⟩
      rw [Nat.sub_add_cancel hdiv, Nat.mul_comm]
      exact (Nat.div_add_mod _ _).symm
    rw [units_add exponent hplace, nearestRank]
    simp only [scaleOf_add exponent hplace, Nat.one_mul]
    have hscale : 0 < Nat.pow 2 exponent := Nat.pow_pos (by decide)
    rw [roundDiv_mul _ hscale, Nat.succ_mul, Nat.add_assoc]

end Binary64

end MiniLisp
