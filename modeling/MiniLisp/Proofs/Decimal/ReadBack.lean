/-
# The shortest decimal reads back

The decimal that is chosen for a finite number is one whose nearest number it is: the
search takes a decimal from a grid only if it reads back, the exact decimal that is left
if no grid has one reads back because it is the number, and zeros at the end of the
coefficient may be moved to the exponent.  Then the decimal is written without an
exponent, which does not change its value either.
-/
import MiniLisp.Decimal.Layout
import MiniLisp.Decimal.Shortest
import MiniLisp.Proofs.Binary64.Rounding
import MiniLisp.Proofs.Decimal.Numeral

namespace MiniLisp.Decimal

/-! ### Decimals of one value -/

lemma stepDen_pos (exponent : Int) : 0 < stepDen exponent := Nat.pow_pos (by decide)

/-- Decimals of one value have the same nearest number. -/
lemma nearestRank_congr {c c' : Nat} {e e' : Int}
    (h : c * stepNum e * stepDen e' = c' * stepNum e' * stepDen e) :
    nearestRank c e = nearestRank c' e' :=
  Binary64.nearestRank_congr (stepDen_pos e) (stepDen_pos e') h

/-- A power of ten is ten times the one before it: below zero the denominator has the factor ten,
from zero on the numerator. -/
lemma tenPow_succ (e : Int) : Nat.pow 10 (e + 1).toNat * Nat.pow 10 (-e).toNat =
    10 * (Nat.pow 10 e.toNat * Nat.pow 10 (-(e + 1)).toNat) := by
  have hpow : ∀ n, Nat.pow 10 (n + 1) = 10 * Nat.pow 10 n := fun n => Nat.mul_comm _ 10
  rcases Int.lt_or_le e 0 with hneg | hpos
  · have hden : (-e).toNat = (-(e + 1)).toNat + 1 := by omega
    have hnum : (e + 1).toNat = e.toNat := by omega
    rw [hden, hnum, hpow, Nat.mul_left_comm]
  · have hden : (-(e + 1)).toNat = (-e).toNat := by omega
    have hnum : (e + 1).toNat = e.toNat + 1 := by omega
    rw [hden, hnum, hpow, Nat.mul_assoc]

/-- A step is ten times the next finer one. -/
lemma stepNum_succ (e : Int) :
    stepNum (e + 1) * stepDen e = 10 * (stepNum e * stepDen (e + 1)) := by
  simp only [stepNum, stepDen]
  generalize Nat.pow 2 Binary64.unitExponent = unit
  rw [Nat.mul_right_comm, tenPow_succ, Nat.mul_assoc, Nat.mul_right_comm (Nat.pow 10 e.toNat)]

lemma nearestRank_ten_mul (c : Nat) (e : Int) :
    nearestRank (10 * c) e = nearestRank c (e + 1) := by
  refine nearestRank_congr ?_
  calc 10 * c * stepNum e * stepDen (e + 1)
      = c * (10 * (stepNum e * stepDen (e + 1))) := by
        rw [Nat.mul_comm 10 c]
        simp only [Nat.mul_assoc]
    _ = c * (stepNum (e + 1) * stepDen e) := by rw [stepNum_succ]
    _ = c * stepNum (e + 1) * stepDen e := by rw [Nat.mul_assoc]

/-- A multiple on a grid is a multiple on every finer one. -/
lemma nearestRank_mul_pow (c : Nat) (e : Int) (n : Nat) :
    nearestRank (c * Nat.pow 10 n) e = nearestRank c (e + n) := by
  induction n generalizing e with
  | zero =>
    show nearestRank (c * 1) e = nearestRank c (e + 0)
    rw [Nat.mul_one, Int.add_zero]
  | succ n ih =>
    calc nearestRank (c * (Nat.pow 10 n * 10)) e = nearestRank (c * Nat.pow 10 n) (e + 1) := by
          rw [← nearestRank_ten_mul, ← Nat.mul_assoc, Nat.mul_comm 10]
      _ = nearestRank c (e + 1 + n) := ih (e + 1)
      _ = nearestRank c (e + (n + 1 : Nat)) := congrArg _ (by omega)

/-- Zeros at the end of the coefficient do not matter. -/
lemma toBinary64_strip (d : Decimal) : d.strip.toBinary64 = d.toBinary64 := by
  induction d using strip.induct with
  | case1 d hzero =>
    have hrank : nearestRank 0 0 = nearestRank 0 d.exponent :=
      nearestRank_congr (by simp only [Nat.zero_mul])
    rw [strip, if_pos hzero, toBinary64, toBinary64, hzero, hrank]
  | case2 d hne hten ih =>
    have hcoefficient : 10 * (d.coefficient / 10) = d.coefficient := by omega
    rw [strip, if_neg hne, if_pos hten, ih, toBinary64, toBinary64, ← nearestRank_ten_mul,
      hcoefficient]
  | case3 d hne hten =>
    rw [strip, if_neg hne, if_neg hten]

/-! ### The search -/

/-- What is taken from a grid reads back. -/
lemma nearestRank_of_onGrid? {rank c : Nat} {e : Int} (h : onGrid? rank e = some c) :
    nearestRank c e = rank := by
  rw [onGrid?] at h
  split at h
  · rename_i hbelow
    split at h
    · rename_i habove
      rw [← Option.some.inj h]
      exact habove.1
    · rw [← Option.some.inj h]
      exact hbelow
  · split at h
    · rename_i habove
      rw [← Option.some.inj h]
      exact habove
    · cases h

lemma toBinary64_of_search? {negative : Bool} {rank steps : Nat} {start : Int} {d : Decimal}
    (h : search? negative rank steps start = some d) :
    d.toBinary64 = .ofRank negative rank := by
  induction steps generalizing start with
  | zero => cases h
  | succ steps ih =>
    rw [search?] at h
    cases hgrid : onGrid? rank start with
    | none =>
      rw [hgrid] at h
      exact ih h
    | some c =>
      rw [hgrid] at h
      rw [← Option.some.inj h, toBinary64, nearestRank_of_onGrid? hgrid]

/-- A decimal with a negative exponent, if the coefficient has as many factors of five. -/
lemma nearestRank_mul_pow_five (c n : Nat) :
    nearestRank (c * Nat.pow 5 n) (-(n : Int)) =
      Binary64.nearestRank (c * Nat.pow 2 Binary64.unitExponent) (Nat.pow 2 n) := by
  have hten : Nat.pow 5 n * Nat.pow 2 n = Nat.pow 10 n := (Nat.mul_pow 5 2 n).symm
  have hnum : (-(n : Int)).toNat = 0 := by omega
  have hden : (-(-(n : Int))).toNat = n := by omega
  rw [nearestRank, stepNum, stepDen, hnum, hden, ← hten]
  -- The factors of five cancel.
  generalize Nat.pow 2 Binary64.unitExponent = unit
  refine Binary64.nearestRank_congr ?_ (Nat.pow_pos (by decide)) ?_
  · exact Nat.mul_pos (Nat.pow_pos (by decide)) (Nat.pow_pos (by decide))
  · show c * Nat.pow 5 n * (1 * unit) * Nat.pow 2 n = c * unit * (Nat.pow 5 n * Nat.pow 2 n)
    rw [Nat.one_mul, Nat.mul_assoc c unit, Nat.mul_left_comm unit, Nat.mul_assoc c, Nat.mul_assoc c,
      Nat.mul_assoc (Nat.pow 5 n)]

lemma toBinary64_exact (negative : Bool) (rank : Nat) :
    (exact negative rank).toBinary64 = .ofRank negative rank := by
  have hunit : 0 < Nat.pow 2 Binary64.unitExponent := Nat.pow_pos (by decide)
  have hscaled := Binary64.nearestRank_mul_right (Binary64.units rank) 1 hunit
  rw [Nat.one_mul, Binary64.nearestRank_units] at hscaled
  rw [exact, toBinary64, nearestRank_mul_pow_five, hscaled]

/-- The shortest decimal of a finite number reads back as the number. -/
theorem toBinary64_shortest (negative : Bool) (rank : Fin Binary64.rankCount) :
    (shortest negative rank).toBinary64 = .finite negative rank := by
  rw [shortest, toBinary64_strip, ← Binary64.ofRank_val]
  cases hsearch : search? negative rank 24 (coarsest rank) with
  | none => exact toBinary64_exact negative rank
  | some d => exact toBinary64_of_search? hsearch

/-! ### Plain decimals -/

lemma isDigit_of_mem_row {d : Decimal} {c : Char} (h : c ∈ d.row) : c.isDigit := by
  have hzero : ∀ n, c ∈ List.replicate n '0' → c.isDigit := by
    intro n hc
    rw [List.eq_of_mem_replicate hc]
    rfl
  rcases List.mem_append.1 h with h | h
  · exact hzero _ h
  · rcases List.mem_append.1 h with h | h
    · exact Nat.isDigit_of_mem_toDigits (by decide) (by decide) h
    · exact hzero _ h

lemma places_lt_length_row (d : Decimal) : d.places < d.row.length := by
  simp only [row, List.length_append, List.length_replicate]
  omega

lemma whole_append_fraction (d : Decimal) : d.whole ++ d.fraction = d.row :=
  List.take_append_drop _ _

lemma length_fraction (d : Decimal) : d.fraction.length = d.places := by
  have h := places_lt_length_row d
  rw [fraction, List.length_drop]
  omega

lemma whole_ne_nil (d : Decimal) : d.whole ≠ [] := by
  have h := places_lt_length_row d
  intro heq
  have hlength := congrArg List.length heq
  rw [whole, List.length_take, List.length_nil] at hlength
  omega

/-- The row of digits has the value of the coefficient and the zeros behind it. -/
lemma ofDigitChars_row (d : Decimal) :
    Nat.ofDigitChars 10 d.row 0 = d.coefficient * Nat.pow 10 d.exponent.toNat := by
  simp only [row, digits]
  rw [Nat.ofDigitChars_append, Nat.ofDigitChars_replicate_zero, Nat.mul_zero,
    Nat.ofDigitChars_append, Nat.ofDigitChars_ten_toDigits, Nat.ofDigitChars_replicate_zero,
    Nat.mul_comm]
  rfl

lemma spellsSign_sign (d : Decimal) : SpellsSign d.sign d.negative := by
  rw [sign]
  cases d.negative with
  | false => exact .absent
  | true => exact .minus

/-- Either there are no digits after the point, or no zeros behind the coefficient. -/
lemma neg_places_add (d : Decimal) :
    -(d.places : Int) + (d.exponent.toNat : Int) = d.exponent := by
  unfold places
  omega

/-- The digits before and after the point are those of the coefficient and the zeros behind it. -/
lemma ofDigits_whole_fraction (d : Decimal) : ofDigits d.negative d.whole d.fraction =
    ⟨d.negative, d.coefficient * Nat.pow 10 d.exponent.toNat, -(d.places : Int)⟩ := by
  rw [ofDigits, whole_append_fraction, ofDigitChars_row, length_fraction]

lemma isDigit_of_mem_whole {d : Decimal} {c : Char} (h : c ∈ d.whole) : c.isDigit :=
  isDigit_of_mem_row (whole_append_fraction d ▸ List.mem_append_left _ h)

lemma isDigit_of_mem_fraction {d : Decimal} {c : Char} (h : c ∈ d.fraction) : c.isDigit :=
  isDigit_of_mem_row (whole_append_fraction d ▸ List.mem_append_right _ h)

/-- The plain form of a decimal spells its digits. -/
lemma spells_plain (d : Decimal) : Spells d.plain (ofDigits d.negative d.whole d.fraction) := by
  have hwhole : ∀ c ∈ d.whole, c.isDigit := fun c hc => isDigit_of_mem_whole hc
  have hfraction : ∀ c ∈ d.fraction, c.isDigit := fun c hc => isDigit_of_mem_fraction hc
  rw [plain]
  cases hcase : d.fraction with
  | nil =>
    rw [List.isEmpty_nil, if_pos rfl, List.append_nil]
    exact .whole (spellsSign_sign d) (whole_ne_nil d) hwhole
  | cons first more =>
    rw [List.isEmpty_cons, if_neg Bool.false_ne_true, ← hcase]
    exact .point (spellsSign_sign d) (whole_ne_nil d) hwhole hfraction

/-- The plain form of a decimal spells a decimal of the same value. -/
theorem exists_spells_plain (d : Decimal) :
    ∃ spelled, Spells d.plain spelled ∧ spelled.toBinary64 = d.toBinary64 := by
  refine ⟨_, spells_plain d, ?_⟩
  rw [ofDigits_whole_fraction, toBinary64, toBinary64, nearestRank_mul_pow, neg_places_add]

end MiniLisp.Decimal
