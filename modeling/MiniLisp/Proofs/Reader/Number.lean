/-
# Numbers are read by their value

The number that is read for a numeral is the number nearest to the exact value of the numeral,
and a zero or an infinity has the sign of the numeral.  So it does not matter how a value is
written, and a greater value is not read as a smaller number.
-/
import MiniLisp.Proofs.Binary64.Nearest
import MiniLisp.Proofs.Decimal.Canonical
import MiniLisp.Proofs.Reader.RoundTrip

namespace MiniLisp

open Binary64

namespace Decimal

/-! ### The exact value -/

/-- The exact value of a decimal without its sign. -/
def size (d : Decimal) : ℚ := d.coefficient * 10 ^ d.exponent

lemma cast_pow (b n : Nat) : ((Nat.pow b n : Nat) : ℚ) = (b : ℚ) ^ n := Nat.cast_pow b n

/-- A power of ten is a fraction of whole powers of ten. -/
lemma ten_zpow_eq (e : Int) :
    (10 : ℚ) ^ e = ((Nat.pow 10 e.toNat : Nat) : ℚ) / ((Nat.pow 10 (-e).toNat : Nat) : ℚ) := by
  rw [cast_pow, cast_pow, Nat.cast_ofNat]
  rcases Int.le_total 0 e with hpos | hneg
  · obtain ⟨n, rfl⟩ := Int.eq_ofNat_of_zero_le hpos
    rw [Int.toNat_natCast, Int.toNat_neg_natCast, pow_zero, div_one, zpow_natCast]
  · obtain ⟨n, hn⟩ := Int.exists_eq_neg_ofNat hneg
    rw [hn, Int.neg_neg, Int.toNat_natCast, Int.toNat_neg_natCast, pow_zero, one_div, zpow_neg,
      zpow_natCast]

lemma size_nonneg (d : Decimal) : 0 ≤ d.size :=
  mul_nonneg (Nat.cast_nonneg _) (zpow_nonneg (by norm_num) _)

lemma value_eq (d : Decimal) : d.value = signed d.negative d.size := by
  have hsize : d.size = ((d.coefficient * Nat.pow 10 d.exponent.toNat : Nat) : ℚ) /
      ((Nat.pow 10 (-d.exponent).toNat : Nat) : ℚ) := by
    rw [size, ten_zpow_eq, Nat.cast_mul, mul_div_assoc]
  rw [value, Rat.mkRat_eq_div, hsize, signed]
  cases d.negative with
  | false => rfl
  | true => simp only [if_true, Int.cast_neg, Int.cast_natCast, neg_div]

/-- The value of digits before and behind a point. -/
lemma size_ofDigits (negative : Bool) (whole fraction : List Char) :
    (ofDigits negative whole fraction).size =
      Nat.ofDigitChars 10 whole 0 + Nat.ofDigitChars 10 fraction 0 / 10 ^ fraction.length := by
  have hpow : (10 : ℚ) ^ fraction.length ≠ 0 := pow_ne_zero _ (by norm_num)
  rw [size, ofDigits, Nat.ofDigitChars_append, Nat.ofDigitChars_eq_ofDigitChars_zero,
    Nat.cast_add, Nat.cast_mul, Nat.cast_pow, Nat.cast_ofNat, zpow_neg, zpow_natCast,
    ← div_eq_mul_inv, add_div, mul_div_cancel_left₀ _ hpow]

/-- Zeros before all digits and behind the fraction do not matter. -/
lemma value_zeros (negative : Bool) (whole fraction : List Char) (before behind : Nat) :
    (ofDigits negative (List.replicate before '0' ++ whole)
      (fraction ++ List.replicate behind '0')).value =
        (ofDigits negative whole fraction).value := by
  have hpow : (10 : ℚ) ^ behind ≠ 0 := pow_ne_zero _ (by norm_num)
  have hwhole : Nat.ofDigitChars 10 (List.replicate before '0' ++ whole) 0 =
      Nat.ofDigitChars 10 whole 0 := by
    rw [Nat.ofDigitChars_append, Nat.ofDigitChars_replicate_zero, Nat.mul_zero]
  have hfraction : Nat.ofDigitChars 10 (fraction ++ List.replicate behind '0') 0 =
      10 ^ behind * Nat.ofDigitChars 10 fraction 0 := by
    rw [Nat.ofDigitChars_append, Nat.ofDigitChars_replicate_zero]
  rw [value_eq, value_eq, size_ofDigits, size_ofDigits, hwhole, hfraction, List.length_append,
    List.length_replicate, Nat.cast_mul, Nat.cast_pow, Nat.cast_ofNat, pow_add, mul_comm (10 ^ _),
    mul_div_mul_right _ _ hpow]
  rfl

/-! ### Rounding -/

lemma isRounded (d : Decimal) :
    IsRounded d.size (nearestRank d.coefficient d.exponent) := by
  have hunit : (2 : ℚ) ^ unitExponent ≠ 0 := pow_ne_zero _ two_ne_zero
  have hrounded :=
    isRounded_nearestRank (d.coefficient * stepNum d.exponent) (stepDen_pos d.exponent)
  have hsize : ((d.coefficient * stepNum d.exponent : Nat) : ℚ) / (stepDen d.exponent : ℚ) /
      2 ^ unitExponent = d.size := by
    rw [size, ten_zpow_eq, stepNum, stepDen, Nat.cast_mul, Nat.cast_mul, cast_pow 2,
      Nat.cast_ofNat, div_right_comm, ← mul_assoc, mul_div_cancel_right₀ _ hunit, mul_div_assoc]
  rwa [hsize] at hrounded

lemma roundsTo (d : Decimal) : RoundsTo d.negative d.value d.toBinary64 := by
  rw [value_eq]
  exact d.isRounded.roundsTo d.size_nonneg d.negative

lemma abs_value (d : Decimal) : |d.value| = d.size := by
  rw [value_eq, abs_signed, abs_of_nonneg d.size_nonneg]

lemma toBinary64_eq_zero_iff {d : Decimal} :
    d.toBinary64 = .zero d.negative ↔ |d.value| ≤ 1 / 2 ^ 1075 := by
  rw [abs_value, ← d.isRounded.eq_zero_iff, toBinary64, zero_eq]
  constructor
  · intro h
    rw [ofRank] at h
    split at h
    · exact congrArg Fin.val (finite.inj h).2
    · cases h
  · intro h
    rw [h]
    exact zero_eq d.negative

lemma toBinary64_eq_infinite_iff {d : Decimal} :
    d.toBinary64 = .infinite d.negative ↔ overflow ≤ |d.value| := by
  rw [abs_value, ← not_lt, ← d.isRounded.lt_rankCount_iff, toBinary64, ofRank]
  split <;> rename_i hlt
  · exact iff_of_false (fun h => by cases h) (not_not.2 hlt)
  · exact iff_of_true rfl hlt

/-- Decimals of one sign and one value are rounded to the same number. -/
lemma toBinary64_congr {d d' : Decimal} (hsign : d.negative = d'.negative)
    (hvalue : d.value = d'.value) : d.toBinary64 = d'.toBinary64 := by
  have hsize : d.size = d'.size := by rw [← abs_value, hvalue, abs_value]
  rw [toBinary64, toBinary64, hsign, d.isRounded.unique (hsize ▸ d'.isRounded)]

/-- A greater decimal is not rounded to a smaller number. -/
lemma toBinary64_le {d d' : Decimal} (h : d.value ≤ d'.value) : d.toBinary64.le d'.toBinary64 := by
  rw [value_eq, value_eq] at h
  exact d.isRounded.le_of_signed_le d'.isRounded d.size_nonneg d'.size_nonneg h

end Decimal

namespace Reader

open Cursor

/-- Wherever a run of characters stands and no symbol character follows, a number is read. -/
def ReadsAs (run : List Char) (x : Binary64) : Prop :=
  ∀ c c', Passes c run c' → StopsAt isSymbolChar c'.rest →
    number? c = (some x, c') ∧ expr c = (.ok (.number x), c')

lemma readsAs_of_spells {numeral : List Char} {d : Decimal} (h : d.Spells numeral) :
    ReadsAs numeral d.toBinary64 := by
  intro c c' hpass hstop
  have hrun : run c = numeral := by
    rw [run, hpass.1, takeWhile_append_of_stopsAt (isSymbolChar_of_spells h) hstop]
  refine ⟨?_, expr_eq_ok_iff.2 ⟨numeral, hpass, .number (isSymbolChar_of_spells h) hstop h⟩⟩
  rw [number?, hrun, Decimal.ofRun?_eq_some_iff.2 h]
  exact Prod.ext rfl hpass.eq_advance

/--
**The number that is read for a numeral is the nearest to its exact value, and nothing else of how
the numeral is written matters but its sign.**  The exact value is that of the digits before the
point and, by their count, of those behind it, so zeros before all digits or behind the fraction
are free.  It is rounded to the nearest number, to the even one of two, to a zero of the sign of
the numeral up to half of the least magnitude, and to an infinity of its sign from the middle
beyond the greatest finite number on.  Numerals of one sign and one value read as one number, and
a greater value does not read as a smaller number.
-/
theorem numerals_read_by_value :
    (∀ numeral d, Decimal.Spells numeral d → ReadsAs numeral d.toBinary64) ∧
    (∀ negative whole fraction, (Decimal.ofDigits negative whole fraction).value =
      signed negative (Nat.ofDigitChars 10 whole 0 +
        Nat.ofDigitChars 10 fraction 0 / 10 ^ fraction.length)) ∧
    (∀ negative whole fraction before behind,
      (Decimal.ofDigits negative (List.replicate before '0' ++ whole)
        (fraction ++ List.replicate behind '0')).value =
          (Decimal.ofDigits negative whole fraction).value) ∧
    (∀ d : Decimal, RoundsTo d.negative d.value d.toBinary64 ∧
      (d.toBinary64 = .zero d.negative ↔ |d.value| ≤ 1 / 2 ^ 1075) ∧
      (d.toBinary64 = .infinite d.negative ↔ 2 ^ 1024 - 2 ^ 970 ≤ |d.value|)) ∧
    ∀ d d' : Decimal,
      (d.negative = d'.negative → d.value = d'.value → d.toBinary64 = d'.toBinary64) ∧
      (d.value ≤ d'.value → d.toBinary64.le d'.toBinary64) := by
  refine ⟨fun _ _ => readsAs_of_spells, fun negative whole fraction => ?_, Decimal.value_zeros,
    fun d => ⟨d.roundsTo, Decimal.toBinary64_eq_zero_iff, Decimal.toBinary64_eq_infinite_iff⟩,
    fun _ _ => ⟨Decimal.toBinary64_congr, Decimal.toBinary64_le⟩⟩
  rw [Decimal.value_eq, Decimal.size_ofDigits]
  rfl

end Reader

end MiniLisp
