/-
# Numerals with an exponent

A numeral may have an exponent behind its digits.  It writes a decimal with exactly the digits
that are written, zeros included.  The inspected form of a decimal writes the decimal, perhaps
with zeros at its end; and writing that one without an exponent, and without `.0` if it ends so,
gives the plain form of the decimal.
-/
import MiniLisp.Proofs.Decimal.Canonical

namespace MiniLisp.Decimal

/-- The whole number of a decimal without an exponent. -/
def toInt (d : Decimal) : Int := if d.negative then -(d.coefficient : Int) else d.coefficient

/-- The decimal that a numeral writes: a run that spells a decimal and, perhaps, the letter `e` and
a run that spells a whole number, the power of ten to multiply by. -/
def ofNumeral? (chars : List Char) : Option Decimal :=
  (ofRun? (chars.takeWhile (· != 'e'))).bind fun d =>
    match chars.dropWhile (· != 'e') with
    | [] => some d
    | _ :: power => (ofRun? power).bind fun k =>
      if k.exponent = 0 then some ⟨d.negative, d.coefficient, d.exponent + k.toInt⟩ else none

/-- A numeral without the zero of a fraction that is nothing else. -/
def dropPointZero (chars : List Char) : List Char :=
  if ['.', '0'].isSuffixOf chars then chars.take (chars.length - 2) else chars

/-! ### Reading numerals -/

lemma Spells.ne_e {run : List Char} {d : Decimal} (h : Spells run d) :
    ∀ c ∈ run, (c != 'e') = true := by
  have hdigit : ∀ c : Char, c.isDigit → (c != 'e') = true := by
    rintro c hc
    rw [bne_iff_ne]
    rintro rfl
    cases hc
  have hsign : ∀ {sign negative}, SpellsSign sign negative → ∀ c ∈ sign, (c != 'e') = true := by
    intro sign negative hsign
    cases hsign <;> simp
  cases h with
  | point hs _ hwhole hfraction =>
    simp only [List.mem_append, List.mem_cons]
    rintro c ((hc | hc) | rfl | hc)
    · exact hsign hs c hc
    · exact hdigit c (hwhole c hc)
    · rfl
    · exact hdigit c (hfraction c hc)
  | leadingPoint hs _ hfraction =>
    simp only [List.mem_append, List.mem_cons]
    rintro c (hc | rfl | hc)
    · exact hsign hs c hc
    · rfl
    · exact hdigit c (hfraction c hc)
  | whole hs _ hwhole =>
    simp only [List.mem_append]
    rintro c (hc | hc)
    · exact hsign hs c hc
    · exact hdigit c (hwhole c hc)

lemma ofNumeral?_of_spells {run : List Char} {d : Decimal} (h : Spells run d) :
    ofNumeral? run = some d := by
  have htake := takeWhile_append_of_stopsAt h.ne_e stopsAt_nil
  have hdrop := dropWhile_append_of_stopsAt h.ne_e stopsAt_nil
  rw [List.append_nil] at htake hdrop
  simp only [ofNumeral?, htake, hdrop, ofRun?_eq_some_iff.2 h, Option.bind_some]

lemma ofNumeral?_append {run power : List Char} {d k : Decimal} (h : Spells run d)
    (hpower : Spells power k) (hwhole : k.exponent = 0) :
    ofNumeral? (run ++ 'e' :: power) = some ⟨d.negative, d.coefficient, d.exponent + k.toInt⟩ := by
  have hstop : StopsAt (· != 'e') ('e' :: power) := stopsAt_cons.2 rfl
  simp only [ofNumeral?, takeWhile_append_of_stopsAt h.ne_e hstop,
    dropWhile_append_of_stopsAt h.ne_e hstop, ofRun?_eq_some_iff.2 h, ofRun?_eq_some_iff.2 hpower,
    Option.bind_some, if_pos hwhole]

/-! ### The plain form -/

/-- The decimal that the plain form writes, the zeros before the point included. -/
lemma ofNumeral?_plain (d : Decimal) : ofNumeral? d.plain =
    some ⟨d.negative, d.coefficient * Nat.pow 10 d.exponent.toNat, -(d.places : Int)⟩ := by
  rw [← ofDigits_whole_fraction]
  exact ofNumeral?_of_spells (spells_plain d)

/-- A decimal that is no multiple of ten is written with all its digits. -/
lemma ofNumeral?_plain_of_nonpos {d : Decimal} (h : d.exponent ≤ 0) :
    ofNumeral? d.plain = some d := by
  have hzero : d.exponent.toNat = 0 := by omega
  have hplaces : -(d.places : Int) = d.exponent := by
    unfold places
    omega
  rw [ofNumeral?_plain, hzero, hplaces]
  exact congrArg some (congrArg (Decimal.mk d.negative · d.exponent) (Nat.mul_one d.coefficient))

lemma strip_plain (d : Decimal) :
    strip ⟨d.negative, d.coefficient * Nat.pow 10 d.exponent.toNat, -(d.places : Int)⟩ =
      d.strip := by
  rw [strip_mul_pow, neg_places_add]

lemma dropPointZero_plain {d : Decimal} (h : d.IsStripped) : dropPointZero d.plain = d.plain := by
  have hcanonical := isCanonical_plain h
  refine if_neg fun hsuffix => ?_
  obtain ⟨chars, hchars⟩ := List.isSuffixOf_iff_suffix.1 hsuffix
  rw [hcanonical.eq] at hchars
  by_cases hne : d.fraction = []
  · -- There is no point.
    rw [if_pos hne, List.append_nil] at hchars
    have hpoint : '.' ∈ (if d.negative then ['-'] else []) ++ d.whole := by
      rw [← hchars]
      simp
    rcases List.mem_append.1 hpoint with hsign | hwhole
    · revert hsign
      cases d.negative <;> decide
    · exact absurd (hcanonical.whole_isDigit _ hwhole) (by decide)
  · -- The last digit of the fraction is not a zero.
    obtain ⟨first, more, hcons⟩ := List.exists_cons_of_ne_nil hne
    have hpoint : ('.' :: d.fraction).getLast? = d.fraction.getLast? := by
      rw [hcons, List.getLast?_cons_cons]
    have hlast := congrArg List.getLast? hchars
    rw [if_neg hne, List.getLast?_append, List.getLast?_append, hpoint,
      List.getLast?_eq_some_getLast hne, Option.some_or] at hlast
    refine hcanonical.fraction_last ?_
    rw [List.getLast?_eq_some_getLast hne, ← hlast]
    rfl

/-! ### The form with a point -/

/-- The decimal with a digit after the point. -/
def padded (d : Decimal) : Decimal :=
  if 0 ≤ d.exponent then ⟨d.negative, d.coefficient * Nat.pow 10 (d.exponent.toNat + 1), -1⟩ else d

lemma strip_padded (d : Decimal) : d.padded.strip = d.strip := by
  unfold padded
  split
  · have hsum : -1 + ((d.exponent.toNat + 1 : Nat) : Int) = d.exponent := by omega
    rw [strip_mul_pow, hsum]
  · rfl

lemma exponent_padded_nonpos (d : Decimal) : d.padded.exponent ≤ 0 := by
  unfold padded
  split
  · show (-1 : Int) ≤ 0
    decide
  · omega

lemma row_padded {d : Decimal} (h : d.IsStripped) (hexponent : 0 ≤ d.exponent) :
    d.padded.row = d.whole ++ ['0'] := by
  have hplaces : d.padded.places = 1 := by
    rw [padded, if_pos hexponent]
    rfl
  have hdigits : d.padded.digits =
      Nat.toDigits 10 (d.coefficient * Nat.pow 10 (d.exponent.toNat + 1)) := by
    rw [padded, if_pos hexponent]
    rfl
  have hexponent' : d.padded.exponent < 0 := by
    rw [padded, if_pos hexponent]
    show (-1 : Int) < 0
    decide
  rw [row_eq_of_neg hexponent', hplaces, hdigits, (whole_eq_of_nonneg hexponent).1]
  rcases Nat.eq_zero_or_pos d.coefficient with hzero | hpos
  · have hnone : d.exponent = 0 := by
      rcases h with hten | ⟨-, hnone⟩
      · rw [hzero] at hten
        exact absurd rfl hten
      · exact hnone
    rw [digits, hzero, hnone, Nat.zero_mul]
    rfl
  · have hlength : 0 < d.digits.length := Nat.length_toDigits_pos
    have hrow : Nat.toDigits 10 (d.coefficient * Nat.pow 10 (d.exponent.toNat + 1)) =
        d.digits ++ List.replicate d.exponent.toNat '0' ++ ['0'] := by
      rw [toDigits_mul_pow hpos, List.replicate_succ', ← List.append_assoc]
      rfl
    have hpad : 1 + 1 - (d.digits ++ List.replicate d.exponent.toNat '0' ++ ['0']).length = 0 := by
      simp only [List.length_append, List.length_singleton]
      omega
    rw [hrow, hpad, List.replicate_zero, List.nil_append]

/-- A whole number is written with a zero behind the point. -/
lemma plain_padded_of_nonneg {d : Decimal} (h : d.IsStripped) (hexponent : 0 ≤ d.exponent) :
    d.padded.plain = d.plain ++ ['.', '0'] := by
  have hplaces : d.padded.places = 1 := by
    rw [padded, if_pos hexponent]
    rfl
  have hsign : d.padded.sign = d.sign := by
    rw [padded, if_pos hexponent]
    rfl
  have hwhole : d.padded.whole = d.whole := by
    rw [whole, row_padded h hexponent, hplaces, List.length_append, List.length_singleton,
      Nat.add_sub_cancel, List.take_left]
  have hfraction : d.padded.fraction = ['0'] := by
    rw [fraction, row_padded h hexponent, hplaces, List.length_append, List.length_singleton,
      Nat.add_sub_cancel, List.drop_left]
  simp only [plain, hsign, hwhole, hfraction, (whole_eq_of_nonneg hexponent).2, List.isEmpty_nil,
    List.isEmpty_cons, if_true, Bool.false_eq_true, if_false, List.append_nil, List.append_assoc]

lemma fraction_ne_nil {d : Decimal} (h : d.exponent < 0) : d.fraction ≠ [] := by
  intro hnil
  have hlength := length_fraction d
  rw [hnil, List.length_nil, places] at hlength
  omega

/-- The form with a point is the plain form of the decimal with a digit after the point. -/
lemma pointed_eq {d : Decimal} (h : d.IsStripped) : d.pointed = d.padded.plain := by
  rcases Int.lt_or_le d.exponent 0 with hneg | hnonneg
  · have hpadded : d.padded = d := if_neg (Int.not_le.2 hneg)
    have hfraction := fraction_ne_nil hneg
    rw [hpadded, pointed, plain, List.isEmpty_eq_false_iff.2 hfraction]
    rfl
  · rw [plain_padded_of_nonneg h hnonneg]
    simp only [pointed, plain, (whole_eq_of_nonneg hnonneg).2, List.isEmpty_nil, if_true,
      List.append_nil]

lemma dropPointZero_padded {d : Decimal} (h : d.IsStripped) :
    dropPointZero d.padded.plain = d.plain := by
  rcases Int.lt_or_le d.exponent 0 with hneg | hnonneg
  · have hpadded : d.padded = d := if_neg (Int.not_le.2 hneg)
    rw [hpadded, dropPointZero_plain h]
  · have hsuffix : ['.', '0'].isSuffixOf (d.plain ++ ['.', '0']) :=
      List.isSuffixOf_iff_suffix.2 (List.suffix_append _ _)
    rw [plain_padded_of_nonneg h hnonneg, dropPointZero, if_pos hsuffix, List.length_append]
    exact List.take_left

/-! ### The form with an exponent -/

lemma spells_mantissa (d : Decimal) :
    Spells (d.sign ++ d.digits.take 1 ++
        (if d.digits.length ≤ 1 then [] else '.' :: d.digits.drop 1))
      ⟨d.negative, d.coefficient, -((d.digits.length - 1 : Nat) : Int)⟩ := by
  have hdigit : ∀ c ∈ d.digits, c.isDigit := fun c hc =>
    Nat.isDigit_of_mem_toDigits (by decide) (by decide) hc
  have hne : d.digits.take 1 ≠ [] := by
    rw [ne_eq, List.take_eq_nil_iff]
    exact fun h => h.elim (by decide) Nat.toDigits_ne_nil
  have hvalue : ofDigits d.negative (d.digits.take 1) (d.digits.drop 1) =
      ⟨d.negative, d.coefficient, -((d.digits.length - 1 : Nat) : Int)⟩ := by
    rw [ofDigits, List.take_append_drop, List.length_drop, digits, Nat.ofDigitChars_ten_toDigits]
  rw [← hvalue]
  split
  · rename_i hshort
    rw [List.drop_eq_nil_of_le hshort, List.append_nil]
    exact .whole (spellsSign_sign d) hne fun c hc => hdigit c (List.mem_of_mem_take hc)
  · exact .point (spellsSign_sign d) hne (fun c hc => hdigit c (List.mem_of_mem_take hc))
      fun c hc => hdigit c (List.mem_of_mem_drop hc)

lemma spells_power (m : Int) :
    Spells ((if m < 0 then '-' else '+') ::
        (List.replicate (2 - (Nat.toDigits 10 m.natAbs).length) '0' ++ Nat.toDigits 10 m.natAbs))
      ⟨decide (m < 0), m.natAbs, 0⟩ := by
  generalize hpower : List.replicate (2 - (Nat.toDigits 10 m.natAbs).length) '0' ++
    Nat.toDigits 10 m.natAbs = power
  have hne : power ≠ [] := by
    rw [← hpower]
    exact List.append_ne_nil_of_right_ne_nil _ Nat.toDigits_ne_nil
  have hdigit : ∀ c ∈ power, c.isDigit := by
    rw [← hpower]
    intro c hc
    rcases List.mem_append.1 hc with hc | hc
    · rw [List.eq_of_mem_replicate hc]
      rfl
    · exact Nat.isDigit_of_mem_toDigits (by decide) (by decide) hc
  have hvalue : ofDigits (decide (m < 0)) power [] = ⟨decide (m < 0), m.natAbs, 0⟩ := by
    rw [ofDigits, List.append_nil, ← hpower, Nat.ofDigitChars_append,
      Nat.ofDigitChars_replicate_zero, Nat.mul_zero, Nat.ofDigitChars_ten_toDigits]
    rfl
  rw [← hvalue]
  by_cases hneg : m < 0
  · rw [if_pos hneg, decide_eq_true hneg]
    exact .whole .minus hne hdigit
  · rw [if_neg hneg, decide_eq_false hneg]
    exact .whole .plus hne hdigit

/-- The form with an exponent writes the decimal with all its digits. -/
lemma ofNumeral?_scientific (d : Decimal) : ofNumeral? d.scientific = some d := by
  have hpos : 0 < d.digits.length := Nat.length_toDigits_pos
  have hint : toInt ⟨decide (d.magnitude < 0), d.magnitude.natAbs, 0⟩ = d.magnitude := by
    simp only [toInt, decide_eq_true_eq]
    omega
  have hsum : -((d.digits.length - 1 : Nat) : Int) + d.magnitude = d.exponent := by
    unfold magnitude
    omega
  rw [scientific, ofNumeral?_append (spells_mantissa d) (spells_power d.magnitude) rfl, hint, hsum]

/-! ### The inspected form -/

/-- **The inspected form writes the decimal**, perhaps with zeros at its end.  Without an exponent,
and without `.0` if it ends so, what it writes has the plain form of the decimal. -/
theorem exists_ofNumeral?_inspected {d : Decimal} (h : d.IsStripped) :
    ∃ written, ofNumeral? d.inspected = some written ∧ written.strip = d ∧
      dropPointZero written.plain = d.plain := by
  rw [inspected]
  split
  · refine ⟨d.padded, ?_, (strip_padded d).trans h.strip_eq, dropPointZero_padded h⟩
    rw [pointed_eq h, ofNumeral?_plain_of_nonpos (exponent_padded_nonpos d)]
  · exact ⟨d, ofNumeral?_scientific d, h.strip_eq, dropPointZero_plain h⟩

end MiniLisp.Decimal
