/-
# Rounding keeps the order

A smaller fraction is not rounded to a greater place: fractions with one scale are rounded on
one grid, and a greater scale begins where a smaller one ends.  Since every magnitude is rounded
to its own place, the places are in the order of the magnitudes.
-/
import MiniLisp.Proofs.Binary64.Rounding

namespace MiniLisp

/-- A smaller dividend is not rounded to a greater quotient. -/
lemma roundDiv_mono {num num' : Nat} (den : Nat) (h : num ≤ num') :
    roundDiv num den ≤ roundDiv num' den := by
  rcases Nat.lt_or_eq_of_le (Nat.div_le_div_right (c := den) h) with hlt | heq
  · calc roundDiv num den ≤ num / den + 1 := roundDiv_le_div_add_one num den
      _ ≤ num' / den := hlt
      _ ≤ roundDiv num' den := div_le_roundDiv num' den
  · -- Of two dividends with one quotient the smaller one has the smaller remainder.
    have hmod : num % den ≤ num' % den := by
      have hnum := Nat.div_add_mod num den
      have hnum' := Nat.div_add_mod num' den
      rw [heq] at hnum
      omega
    simp only [roundDiv, heq]
    split <;> split <;> omega

namespace Binary64

/-- On its scale a fraction has at most fifty-three bits. -/
lemma div_scaled_lt (num den : Nat) :
    num / (den * Nat.pow 2 (scaleOf num den)) < Nat.pow 2 53 := by
  have hbits : num / den < Nat.pow 2 53 * Nat.pow 2 (scaleOf num den) := by
    calc num / den < 2 ^ ((num / den).log2 + 1) := Nat.lt_log2_self
      _ ≤ 2 ^ (53 + scaleOf num den) := Nat.pow_le_pow_right (by decide) (by unfold scaleOf; omega)
      _ = Nat.pow 2 53 * Nat.pow 2 (scaleOf num den) := Nat.pow_add 2 53 _
  rw [← Nat.div_div_eq_div_mul]
  exact Nat.div_lt_of_lt_mul (Nat.mul_comm _ _ ▸ hbits)

/-- On a scale that is not the first a fraction has fifty-three bits. -/
lemma le_div_scaled {num den : Nat} (h : 0 < scaleOf num den) :
    Nat.pow 2 52 ≤ num / (den * Nat.pow 2 (scaleOf num den)) := by
  have hne : num / den ≠ 0 := by
    intro hzero
    rw [scaleOf, hzero] at h
    exact absurd h (by decide)
  have hbits : Nat.pow 2 52 * Nat.pow 2 (scaleOf num den) ≤ num / den := by
    calc Nat.pow 2 52 * Nat.pow 2 (scaleOf num den) = 2 ^ (52 + scaleOf num den) :=
          (Nat.pow_add 2 52 _).symm
      _ ≤ 2 ^ (num / den).log2 := Nat.pow_le_pow_right (by decide) (by unfold scaleOf at h ⊢; omega)
      _ ≤ num / den := Nat.log2_self_le hne
  rw [← Nat.div_div_eq_div_mul]
  exact (Nat.le_div_iff_mul_le (Nat.pow_pos (by decide))).2 hbits

lemma roundDiv_scaled_le (num den : Nat) :
    roundDiv num (den * Nat.pow 2 (scaleOf num den)) ≤ Nat.pow 2 53 :=
  Nat.le_trans (roundDiv_le_div_add_one _ _) (div_scaled_lt num den)

lemma le_roundDiv_scaled {num den : Nat} (h : 0 < scaleOf num den) :
    Nat.pow 2 52 ≤ roundDiv num (den * Nat.pow 2 (scaleOf num den)) :=
  Nat.le_trans (le_div_scaled h) (div_le_roundDiv _ _)

lemma log2_mono {m n : Nat} (h : m ≤ n) : m.log2 ≤ n.log2 := by
  rcases Nat.eq_zero_or_pos m with rfl | hpos
  · rw [Nat.log2_zero]
    exact Nat.zero_le _
  · exact (Nat.le_log2 (by omega)).2 (Nat.le_trans (Nat.log2_self_le (Nat.ne_of_gt hpos)) h)

lemma scaleOf_mono {num num' : Nat} (den : Nat) (h : num ≤ num') :
    scaleOf num den ≤ scaleOf num' den :=
  Nat.sub_le_sub_right (log2_mono (Nat.div_le_div_right h)) 52

lemma nearestRank_mono_left {num num' : Nat} (den : Nat) (h : num ≤ num') :
    nearestRank num den ≤ nearestRank num' den := by
  simp only [nearestRank]
  rcases Nat.lt_or_eq_of_le (scaleOf_mono den h) with hlt | heq
  · -- The greater fraction has a greater scale.
    have hle := roundDiv_scaled_le num den
    have hge := le_roundDiv_scaled (Nat.lt_of_le_of_lt (Nat.zero_le _) hlt)
    have hscale := Nat.mul_le_mul_right (Nat.pow 2 52) hlt
    rw [Nat.succ_mul] at hscale
    have hdouble : Nat.pow 2 53 = Nat.pow 2 52 + Nat.pow 2 52 := by decide
    omega
  · rw [heq]
    exact Nat.add_le_add_left (roundDiv_mono _ h) _

/-- **Rounding is monotone.** -/
theorem nearestRank_mono {num den num' den' : Nat} (hden : 0 < den) (hden' : 0 < den')
    (h : num * den' ≤ num' * den) : nearestRank num den ≤ nearestRank num' den' := by
  rw [← nearestRank_mul_right num den hden', ← nearestRank_mul_right num' den' hden,
    Nat.mul_comm den' den]
  exact nearestRank_mono_left _ h

/-! ### The order of the magnitudes -/

lemma units_le_units_iff {rank rank' : Nat} : units rank ≤ units rank' ↔ rank ≤ rank' := by
  have hmono : ∀ {r s : Nat}, units r ≤ units s → r ≤ s := by
    intro r s h
    have hrank := nearestRank_mono_left 1 h
    rwa [nearestRank_units, nearestRank_units] at hrank
  refine ⟨hmono, fun h => ?_⟩
  rcases Nat.le_total (units rank) (units rank') with hle | hge
  · exact hle
  · exact Nat.le_of_eq (congrArg units (Nat.le_antisymm h (hmono hge)))

lemma units_lt_units_iff {rank rank' : Nat} : units rank < units rank' ↔ rank < rank' := by
  rw [← Nat.not_le, units_le_units_iff, Nat.not_le]

lemma units_zero : units 0 = 0 := units_of_lt (by decide)

/-- Only the first magnitude is zero. -/
lemma units_eq_zero_iff {rank : Nat} : units rank = 0 ↔ rank = 0 := by
  constructor
  · intro h
    exact Nat.le_zero.1 (units_le_units_iff.1 (Nat.le_of_eq (h.trans units_zero.symm)))
  · rintro rfl
    exact units_zero

/-- A whole number of units that is not zero is not rounded to zero. -/
lemma nearestRank_pos {num : Nat} (h : 0 < num) : 0 < nearestRank num 1 := by
  have hone : nearestRank 1 1 = 1 := by
    have hunits := nearestRank_units 1
    rwa [units_of_lt (by decide)] at hunits
  have hrank := nearestRank_mono_left 1 (Nat.succ_le_of_lt h)
  rwa [Nat.succ_eq_add_one, Nat.zero_add, hone] at hrank

end Binary64

end MiniLisp
