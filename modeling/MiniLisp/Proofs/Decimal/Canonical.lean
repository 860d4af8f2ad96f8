/-
# The plain form is canonical

A decimal without zeros at the end of its coefficient is written in only one way: nothing but a
lone zero stands before the point without being needed, and no zero at the end of the fraction.
Zeros at the end of a coefficient are all that two decimals of one value can differ in, so such a
decimal stands for all of its value (`value_strip`).
-/
import MiniLisp.Proofs.Decimal.ReadBack

namespace MiniLisp.Decimal

/-! ### Digits -/

lemma head?_append_ne {chars : List Char} {c : Char} (hne : chars ≠ [])
    (h : chars.head? ≠ some c) (more : List Char) : (chars ++ more).head? ≠ some c := by
  obtain ⟨first, others, rfl⟩ := List.exists_cons_of_ne_nil hne
  exact h

lemma head?_toDigits_ne_zero {n : Nat} (h : 0 < n) : (Nat.toDigits 10 n).head? ≠ some '0' := by
  induction n using Nat.strongRecOn with
  | ind n ih =>
    rw [Nat.toDigits_eq_if (by decide)]
    split
    · rw [List.head?_cons]
      intro hzero
      have hn := Nat.digitChar_eq_zero.1 (Option.some.inj hzero)
      omega
    · exact head?_append_ne Nat.toDigits_ne_nil (ih (n / 10) (by omega) (by omega)) _

lemma getLast?_toDigits (n : Nat) :
    (Nat.toDigits 10 n).getLast? = some (Nat.digitChar (n % 10)) := by
  rw [Nat.toDigits_eq_if (by decide)]
  split
  · rename_i hlt
    rw [List.getLast?_singleton, Nat.mod_eq_of_lt hlt]
  · rw [List.getLast?_append, List.getLast?_singleton, Option.some_or]

/-- A factor of a power of ten is written as zeros. -/
lemma toDigits_mul_pow {n : Nat} (h : 0 < n) (count : Nat) :
    Nat.toDigits 10 (n * Nat.pow 10 count) = Nat.toDigits 10 n ++ List.replicate count '0' := by
  induction count with
  | zero =>
    rw [List.replicate_zero, List.append_nil]
    exact congrArg _ (Nat.mul_one n)
  | succ count ih =>
    have hpos : 0 < n * Nat.pow 10 count := Nat.mul_pos h (Nat.pow_pos (by decide))
    have hdigit := Nat.toDigits_append_toDigits (b := 10) (d := 0) (by decide) hpos (by decide)
    have hmul : n * Nat.pow 10 (count + 1) = 10 * (n * Nat.pow 10 count) + 0 := by
      show n * (Nat.pow 10 count * 10) = _
      rw [Nat.add_zero, Nat.mul_comm 10, Nat.mul_assoc]
    rw [hmul, ← hdigit, ih, Nat.toDigits_zero, List.append_assoc, List.replicate_succ']

/-! ### Zeros at the end -/

/-- No zero stands at the end of the coefficient, and zero has no exponent. -/
def IsStripped (d : Decimal) : Prop :=
  d.coefficient % 10 ≠ 0 ∨ d.coefficient = 0 ∧ d.exponent = 0

lemma isStripped_strip (d : Decimal) : d.strip.IsStripped := by
  induction d using strip.induct with
  | case1 d hzero =>
    rw [strip, if_pos hzero]
    exact .inr ⟨rfl, rfl⟩
  | case2 d hne hten ih => rwa [strip, if_neg hne, if_pos hten]
  | case3 d hne hten =>
    rw [strip, if_neg hne, if_neg hten]
    exact .inl hten

lemma isStripped_shortest (negative : Bool) (rank : Nat) : (shortest negative rank).IsStripped :=
  isStripped_strip _

lemma IsStripped.strip_eq {d : Decimal} (h : d.IsStripped) : d.strip = d := by
  rcases h with hten | ⟨hzero, hexponent⟩
  · rw [strip, if_neg (fun hzero => hten (by rw [hzero])), if_neg hten]
  · rw [strip, if_pos hzero, ← hzero, ← hexponent]

lemma strip_ten_mul (negative : Bool) (c : Nat) (e : Int) :
    strip ⟨negative, c * 10, e⟩ = strip ⟨negative, c, e + 1⟩ := by
  rcases Nat.eq_zero_or_pos c with rfl | hpos
  · rw [strip, if_pos (Nat.zero_mul 10), strip, if_pos rfl]
  · have hne : c * 10 ≠ 0 := by omega
    rw [strip, if_neg hne, if_pos (Nat.mul_mod_left c 10), Nat.mul_div_cancel c (by decide)]

/-- Zeros may be moved from the coefficient to the exponent. -/
lemma strip_mul_pow (negative : Bool) (c : Nat) (e : Int) (n : Nat) :
    strip ⟨negative, c * Nat.pow 10 n, e⟩ = strip ⟨negative, c, e + n⟩ := by
  induction n generalizing e with
  | zero =>
    show strip ⟨negative, c * 1, e⟩ = strip ⟨negative, c, e + 0⟩
    rw [Nat.mul_one, Int.add_zero]
  | succ n ih =>
    have hsum : e + 1 + (n : Int) = e + (n + 1 : Nat) := by omega
    show strip ⟨negative, c * (Nat.pow 10 n * 10), e⟩ = _
    rw [← Nat.mul_assoc, strip_ten_mul, ih, hsum]

/-- The exact value of a decimal. -/
def value (d : Decimal) : Rat :=
  let magnitude := d.coefficient * Nat.pow 10 d.exponent.toNat
  mkRat (if d.negative then -(magnitude : Int) else magnitude) (Nat.pow 10 (-d.exponent).toNat)

lemma value_ten_mul (negative : Bool) (c : Nat) (e : Int) :
    value ⟨negative, c * 10, e⟩ = value ⟨negative, c, e + 1⟩ := by
  have hden : ∀ n, Nat.pow 10 n ≠ 0 := fun n => Nat.ne_of_gt (Nat.pow_pos (by decide))
  have hmagnitude : c * 10 * Nat.pow 10 e.toNat * Nat.pow 10 (-(e + 1)).toNat =
      c * Nat.pow 10 (e + 1).toNat * Nat.pow 10 (-e).toNat := by
    rw [Nat.mul_assoc c (Nat.pow 10 _), tenPow_succ]
    simp only [Nat.mul_assoc]
  have hcast := congrArg (Nat.cast : Nat → Int) hmagnitude
  rw [Int.natCast_mul, Int.natCast_mul _ (Nat.pow 10 (-e).toNat)] at hcast
  simp only [value]
  rw [Rat.mkRat_eq_iff (hden _) (hden _)]
  cases negative with
  | false => exact hcast
  | true =>
    simp only [if_true, Int.neg_mul]
    rw [hcast]

/-- Without zeros at the end a decimal has the same value. -/
lemma value_strip (d : Decimal) : d.strip.value = d.value := by
  induction d using strip.induct with
  | case1 d hzero =>
    rw [strip, if_pos hzero]
    simp [value, hzero]
  | case2 d hne hten ih =>
    have hcoefficient : d.coefficient / 10 * 10 = d.coefficient := by omega
    rw [strip, if_neg hne, if_pos hten, ih, ← value_ten_mul, hcoefficient]
  | case3 d hne hten => rw [strip, if_neg hne, if_neg hten]

/-! ### Canonical numerals -/

/-- A numeral that has no exponent and in which no character can be spared. -/
structure IsCanonical (negative : Bool) (chars whole fraction : List Char) : Prop where
  /-- A minus sign, the digits before the point and, if there are any, the point and the digits
  after it. -/
  eq : chars = (if negative then ['-'] else []) ++ whole ++
    (if fraction = [] then [] else '.' :: fraction)
  whole_isDigit : ∀ c ∈ whole, c.isDigit
  fraction_isDigit : ∀ c ∈ fraction, c.isDigit
  /-- Before the point no zero leads, but for a lone one. -/
  whole_head : whole = ['0'] ∨ whole ≠ [] ∧ whole.head? ≠ some '0'
  /-- After the point no zero is last. -/
  fraction_last : fraction.getLast? ≠ some '0'

lemma whole_eq_of_nonneg {d : Decimal} (h : 0 ≤ d.exponent) :
    d.whole = d.digits ++ List.replicate d.exponent.toNat '0' ∧ d.fraction = [] := by
  have hplaces : d.places = 0 := by
    unfold places
    omega
  have hpos : 0 < d.digits.length := Nat.length_toDigits_pos
  have hpad : 0 + 1 - (d.digits ++ List.replicate d.exponent.toNat '0').length = 0 := by
    rw [List.length_append]
    omega
  have hrow : d.row = d.digits ++ List.replicate d.exponent.toNat '0' := by
    simp only [row, hplaces, hpad, List.replicate_zero, List.nil_append]
  refine ⟨?_, ?_⟩
  · rw [whole, hplaces, Nat.sub_zero, List.take_length, hrow]
  · rw [fraction, hplaces, Nat.sub_zero, List.drop_length]

lemma row_eq_of_neg {d : Decimal} (h : d.exponent < 0) :
    d.row = List.replicate (d.places + 1 - d.digits.length) '0' ++ d.digits := by
  have hzero : d.exponent.toNat = 0 := by omega
  simp only [row, hzero, List.replicate_zero, List.append_nil]

lemma whole_head_of_isStripped {d : Decimal} (h : d.IsStripped) :
    d.whole = ['0'] ∨ d.whole ≠ [] ∧ d.whole.head? ≠ some '0' := by
  rcases Nat.eq_zero_or_pos d.coefficient with hzero | hpos
  · have hexponent : d.exponent = 0 := by
      rcases h with hten | ⟨-, hexponent⟩
      · rw [hzero] at hten
        exact absurd rfl hten
      · exact hexponent
    left
    rw [(whole_eq_of_nonneg (Int.le_of_eq hexponent.symm)).1, hexponent, digits, hzero]
    rfl
  · have hhead : d.digits.head? ≠ some '0' := head?_toDigits_ne_zero hpos
    rcases Int.lt_or_le d.exponent 0 with hneg | hnonneg
    · rcases Nat.lt_or_ge d.places d.digits.length with hlong | hshort
      · -- Some digits stand before the point.
        right
        have hpad : d.places + 1 - d.digits.length = 0 := by omega
        refine ⟨whole_ne_nil d, ?_⟩
        rw [whole, row_eq_of_neg hneg, hpad, List.replicate_zero, List.nil_append,
          List.head?_take, if_neg (by omega)]
        exact hhead
      · -- One zero stands before the point.
        left
        have hpad : d.places + 1 - d.digits.length = (d.places - d.digits.length) + 1 := by omega
        have hlength : d.row.length - d.places = 1 := by
          rw [row_eq_of_neg hneg, List.length_append, List.length_replicate]
          omega
        rw [whole, hlength, row_eq_of_neg hneg, hpad, List.replicate_succ, List.cons_append,
          List.take_succ_cons, List.take_zero]
    · right
      refine ⟨whole_ne_nil d, ?_⟩
      rw [(whole_eq_of_nonneg hnonneg).1]
      exact head?_append_ne Nat.toDigits_ne_nil hhead _

lemma fraction_last_of_isStripped {d : Decimal} (h : d.IsStripped) :
    d.fraction.getLast? ≠ some '0' := by
  rcases Int.lt_or_le d.exponent 0 with hneg | hnonneg
  · have hten : d.coefficient % 10 ≠ 0 := h.resolve_right fun hzero => by omega
    have hlast : d.row.getLast? = some (Nat.digitChar (d.coefficient % 10)) := by
      rw [row_eq_of_neg hneg, List.getLast?_append, digits, getLast?_toDigits, Option.some_or]
    rw [fraction, List.getLast?_drop]
    split
    · exact (Option.some_ne_none '0').symm
    · rw [hlast]
      exact fun hzero => hten (Nat.digitChar_eq_zero.1 (Option.some.inj hzero))
  · rw [(whole_eq_of_nonneg hnonneg).2]
    exact (Option.some_ne_none '0').symm

/-- The plain form of a decimal without zeros at the end is canonical. -/
theorem isCanonical_plain {d : Decimal} (h : d.IsStripped) :
    IsCanonical d.negative d.plain d.whole d.fraction where
  eq := by simp only [plain, sign, List.isEmpty_iff]
  whole_isDigit := fun _ => isDigit_of_mem_whole
  fraction_isDigit := fun _ => isDigit_of_mem_fraction
  whole_head := whole_head_of_isStripped h
  fraction_last := fraction_last_of_isStripped h

end MiniLisp.Decimal
