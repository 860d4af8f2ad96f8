/-
# The nearest number

Rounding gives the number whose exact value is nearest to the value that is rounded, and of two
that are as near the one with the even place.  Beyond the greatest finite number the place where
rounding turns is the middle to the bound of the finite magnitudes, and there an infinity begins;
up to the middle between zero and the least magnitude everything is rounded to a zero.
-/
import Mathlib.Algebra.Order.Ring.Abs
import Mathlib.Tactic.Linarith
import Mathlib.Tactic.Ring
import MiniLisp.Proofs.Binary64.Order
import MiniLisp.Proofs.Binary64.Spacing

namespace MiniLisp.Binary64

/-- Values from here on, and up to here below zero, are rounded to infinities. -/
def overflow : ℚ := 2 ^ 1024 - 2 ^ 970

/-- A number of a sign is what a value is rounded to. -/
inductive RoundsTo (negative : Bool) (v : ℚ) : Binary64 → Prop
  /-- No finite number is nearer to the value, and if another one is as near the place is even. -/
  | finite {rank : Fin rankCount} (hbelow : |v| < overflow)
    (hnearest : ∀ m (s : Fin rankCount), |v - value negative rank| ≤ |v - value m s|)
    (htie : ∀ m (s : Fin rankCount), value m s ≠ value negative rank →
      |v - value negative rank| = |v - value m s| → rank.val % 2 = 0) :
    RoundsTo negative v (.finite negative rank)
  /-- The value is too large. -/
  | infinite (habove : overflow ≤ |v|) : RoundsTo negative v (.infinite negative)

/-! ### Magnitudes -/

/-- A magnitude with a sign. -/
def signed (negative : Bool) (v : ℚ) : ℚ := if negative then -v else v

lemma value_eq_signed (negative : Bool) (rank : Nat) :
    value negative rank = signed negative (value false rank) := by
  cases negative with
  | false => rfl
  | true => simp only [value, signed, signedUnits, if_true, Int.cast_neg, neg_div]; rfl

lemma abs_signed (negative : Bool) (v : ℚ) : |signed negative v| = |v| := by
  cases negative with
  | false => rfl
  | true => exact abs_neg v

lemma signed_sub_signed (negative : Bool) (v w : ℚ) :
    signed negative v - signed negative w = signed negative (v - w) := by
  cases negative with
  | false => rfl
  | true => exact neg_sub_neg v w |>.trans (neg_sub v w).symm

lemma signed_sub_signed_not (negative : Bool) (v w : ℚ) :
    signed negative v - signed (!negative) w = signed negative (v + w) := by
  cases negative with
  | false => exact sub_neg_eq_add v w
  | true => exact (neg_add' v w).symm

lemma value_lt_value_iff {r s : Nat} : value false r < value false s ↔ r < s := by
  rw [← not_le, value_le_value_iff, not_le]
  exact Int.ofNat_lt.trans units_lt_units_iff

lemma value_zero (negative : Bool) : value negative 0 = 0 := by
  rw [value, signedUnits_eq_zero_iff.2 rfl, Int.cast_zero, zero_div]

lemma value_nonneg (rank : Nat) : 0 ≤ value false rank := by
  rw [← value_zero false]
  exact value_le_value_iff.2 (Int.ofNat_le.2 (units_le_units_iff.2 (Nat.zero_le rank)))

/-- From `2 ^ 52` on the value of a place is a power of two and a magnitude of fifty-three bits
that it multiplies. -/
lemma value_add (exponent : Nat) {place : Nat} (h : place < Nat.pow 2 52) :
    value false ((exponent + 1) * Nat.pow 2 52 + place) =
      (2 ^ 52 + place) * (2 ^ exponent / 2 ^ unitExponent) := by
  have hpow : ∀ n, ((Nat.pow 2 n : Nat) : ℚ) = 2 ^ n := fun n =>
    (Nat.cast_pow 2 n).trans (congrArg (· ^ n) Nat.cast_ofNat)
  have hunits : (signedUnits false ((exponent + 1) * Nat.pow 2 52 + place) : ℚ) =
      ((units ((exponent + 1) * Nat.pow 2 52 + place) : Nat) : ℚ) := rfl
  rw [value, hunits, units_add exponent h, Nat.cast_mul, Nat.cast_add, hpow, hpow, mul_div_assoc]

/-- Twice the middle between the greatest finite magnitude and the bound of all. -/
lemma value_add_value_rankCount :
    value false (rankCount - 1) + value false rankCount = 2 * overflow := by
  have hlast : rankCount - 1 = (2045 + 1) * Nat.pow 2 52 + (Nat.pow 2 52 - 1) := by decide
  have hbound : rankCount = (2046 + 1) * Nat.pow 2 52 + 0 := by decide
  have hunit : (2 : ℚ) ^ 1074 ≠ 0 := pow_ne_zero _ two_ne_zero
  have h2045 : (2 : ℚ) ^ 2045 = 2 * 2 ^ 970 * 2 ^ 1074 := by rw [← pow_succ', ← pow_add]
  have h2046 : (2 : ℚ) ^ 2046 = 2 * (2 * 2 ^ 970) * 2 ^ 1074 := by
    rw [← pow_succ', ← pow_succ', ← pow_add]
  have h1024 : (2 : ℚ) ^ 1024 = 2 ^ 52 * (2 * (2 * 2 ^ 970)) := by
    rw [← pow_succ', ← pow_succ', ← pow_add]
  rw [hlast, value_add 2045 (by decide), hbound, value_add 2046 (by decide), overflow,
    unitExponent, h2045, h2046, h1024, mul_div_cancel_right₀ _ hunit, mul_div_cancel_right₀ _ hunit]
  generalize (2 : ℚ) ^ 970 = step
  norm_num
  ring

lemma place?_ofRank (negative : Bool) (rank : Nat) :
    (ofRank negative rank).place? = some (signedUnits negative (min rank rankCount)) := by
  rw [ofRank]
  split <;> rename_i hlt
  · rw [min_eq_left hlt.le]
    rfl
  · rw [min_eq_right (not_lt.1 hlt)]
    rfl

/-! ### Where rounding turns -/

/-- A magnitude is rounded to a place. -/
def IsRounded (v : ℚ) (rank : Nat) : Prop :=
  ∀ s, s < rank ↔ value false s + value false (s + 1) < 2 * v ∨
    value false s + value false (s + 1) = 2 * v ∧ s % 2 = 1

lemma isRounded_nearestRank (num : Nat) {den : Nat} (hden : 0 < den) :
    IsRounded (num / den / 2 ^ unitExponent) (nearestRank num den) := by
  intro s
  have hunit : (0 : ℚ) < 2 ^ unitExponent := by positivity
  have hpos : (0 : ℚ) < den := Nat.cast_pos.2 hden
  have hsum : value false s + value false (s + 1) =
      ((units s + units (s + 1) : Nat) : ℚ) / 2 ^ unitExponent := by
    rw [value, value, ← add_div, Nat.cast_add]
    rfl
  rw [lt_nearestRank_iff hden, hsum, ← mul_div_assoc, div_lt_div_iff_of_pos_right hunit,
    div_left_inj' hunit.ne', ← mul_div_assoc, lt_div_iff₀ hpos, eq_div_iff hpos.ne']
  exact_mod_cast Iff.rfl

/-- Of two values the greater one is as near or nearer from the middle on. -/
lemma abs_sub_le_abs_sub_iff {a b v : ℚ} (h : a < b) : |v - b| ≤ |v - a| ↔ a + b ≤ 2 * v := by
  have hfactor : (v - a) ^ 2 - (v - b) ^ 2 = (b - a) * (2 * v - (a + b)) := by ring
  rw [← sq_le_sq, ← sub_nonneg, hfactor, mul_nonneg_iff_of_pos_left (sub_pos.2 h), sub_nonneg]

/-- Of two values the smaller one is as near or nearer up to the middle. -/
lemma abs_sub_le_abs_sub_iff' {a b v : ℚ} (h : a < b) : |v - a| ≤ |v - b| ↔ 2 * v ≤ a + b := by
  have hfactor : (v - b) ^ 2 - (v - a) ^ 2 = (b - a) * (a + b - 2 * v) := by ring
  rw [← sq_le_sq, ← sub_nonneg, hfactor, mul_nonneg_iff_of_pos_left (sub_pos.2 h), sub_nonneg]

namespace IsRounded

variable {v : ℚ} {rank : Nat}

/-- What is rounded to a place is not below the middle between any place before and it, and at
the middle the place is even. -/
lemma middle_le (h : IsRounded v rank) {s : Nat} (hs : s < rank) :
    value false s + value false rank ≤ 2 * v ∧
      (value false s + value false rank = 2 * v → rank % 2 = 0) := by
  obtain ⟨before, rfl⟩ := Nat.exists_eq_add_of_lt hs
  have hle : value false s ≤ value false (s + before) := by
    rcases Nat.eq_zero_or_pos before with rfl | hpos
    · exact le_rfl
    · exact (value_lt_value_iff.2 (Nat.lt_add_of_pos_right hpos)).le
  rcases (h (s + before)).1 (Nat.lt_succ_self _) with hlt | ⟨heq, hodd⟩
  · exact ⟨by linarith, fun htie => by linarith⟩
  · exact ⟨by linarith, fun _ => by omega⟩

/-- What is rounded to a place is not beyond the middle between it and any place behind, and at
the middle the place is even. -/
lemma le_middle (h : IsRounded v rank) {s : Nat} (hs : rank < s) :
    2 * v ≤ value false rank + value false s ∧
      (value false rank + value false s = 2 * v → rank % 2 = 0) := by
  obtain ⟨after, rfl⟩ := Nat.exists_eq_add_of_lt hs
  have hle : value false (rank + 1) ≤ value false (rank + after + 1) := by
    rcases Nat.eq_zero_or_pos after with rfl | hpos
    · exact le_rfl
    · exact (value_lt_value_iff.2 (by omega)).le
  obtain ⟨hmiddle, hodd⟩ := not_or.1 (mt (h rank).2 (Nat.lt_irrefl rank))
  refine ⟨by linarith, fun htie => ?_⟩
  have heq : value false rank + value false (rank + 1) = 2 * v := by linarith
  exact Nat.mod_two_ne_one.1 fun hone => hodd ⟨heq, hone⟩

/-- No magnitude is nearer. -/
lemma abs_sub_le (h : IsRounded v rank) (s : Nat) :
    |v - value false rank| ≤ |v - value false s| := by
  rcases Nat.lt_trichotomy s rank with hlt | rfl | hgt
  · exact (abs_sub_le_abs_sub_iff (value_lt_value_iff.2 hlt)).2 (h.middle_le hlt).1
  · exact le_rfl
  · exact (abs_sub_le_abs_sub_iff' (value_lt_value_iff.2 hgt)).2 (h.le_middle hgt).1

/-- If another magnitude is as near the place is even. -/
lemma even_of_abs_sub_eq (h : IsRounded v rank) {s : Nat} (hne : s ≠ rank)
    (heq : |v - value false rank| = |v - value false s|) : rank % 2 = 0 := by
  rcases Nat.lt_or_gt_of_ne hne with hlt | hgt
  · obtain ⟨hmiddle, heven⟩ := h.middle_le hlt
    exact heven (le_antisymm hmiddle
      ((abs_sub_le_abs_sub_iff' (value_lt_value_iff.2 hlt)).1 heq.ge))
  · obtain ⟨hmiddle, heven⟩ := h.le_middle hgt
    exact heven (le_antisymm ((abs_sub_le_abs_sub_iff (value_lt_value_iff.2 hgt)).1 heq.ge) hmiddle)

/-- A smaller magnitude is not rounded to a greater place. -/
lemma mono {v' : ℚ} {rank' : Nat} (h : IsRounded v rank) (h' : IsRounded v' rank') (hle : v ≤ v') :
    rank ≤ rank' := by
  refine Nat.le_of_not_lt fun hlt => Nat.lt_irrefl rank' ((h' rank').2 ?_)
  rcases (h rank').1 hlt with hmiddle | ⟨hmiddle, hodd⟩
  · exact Or.inl (by linarith)
  · rcases hle.lt_or_eq with hlt | rfl
    · exact Or.inl (by linarith)
    · exact Or.inr ⟨hmiddle, hodd⟩

lemma unique {rank' : Nat} (h : IsRounded v rank) (h' : IsRounded v rank') : rank = rank' :=
  Nat.le_antisymm (h.mono h' le_rfl) (h'.mono h le_rfl)

/-- A value is rounded to zero up to the middle to the least magnitude. -/
lemma eq_zero_iff (h : IsRounded v rank) : rank = 0 ↔ v ≤ 1 / 2 ^ 1075 := by
  have hzero : value false 0 = 0 := value_zero false
  have hleast : value false (0 + 1) = 2 * (1 / 2 ^ 1075) := by
    have hone : signedUnits false (0 + 1) = 1 := congrArg Nat.cast (units_of_lt (by decide))
    rw [value, hone, Int.cast_one, unitExponent, pow_succ _ 1074]
    generalize (2 : ℚ) ^ 1074 = unit
    ring
  generalize (1 : ℚ) / 2 ^ 1075 = half at *
  constructor
  · rintro rfl
    by_contra hlt
    exact Nat.lt_irrefl 0 ((h 0).2 (Or.inl (by linarith)))
  · intro hle
    refine Nat.eq_zero_of_not_pos fun hpos => ?_
    rcases (h 0).1 hpos with hlt | ⟨-, hodd⟩
    · linarith
    · exact absurd hodd (by decide)

/-- A value is rounded to a finite magnitude up to where it overflows. -/
lemma lt_rankCount_iff (h : IsRounded v rank) : rank < rankCount ↔ v < overflow := by
  have hturn := h (rankCount - 1)
  rw [show rankCount - 1 + 1 = rankCount by decide, value_add_value_rankCount] at hturn
  have hodd : (rankCount - 1) % 2 = 1 := by decide
  rw [← not_le, ← not_le, not_iff_not]
  constructor
  · intro hle
    rcases hturn.1 (Nat.lt_of_lt_of_le (by decide) hle) with hlt | ⟨heq, -⟩ <;> linarith
  · intro hle
    refine Nat.le_of_pred_lt (hturn.2 ?_)
    rcases hle.lt_or_eq with hlt | heq
    · exact Or.inl (by linarith)
    · exact Or.inr ⟨by rw [heq], hodd⟩

/-- With a sign, a magnitude is rounded to the nearest number of all. -/
theorem roundsTo (h : IsRounded v rank) (hv : 0 ≤ v) (negative : Bool) :
    RoundsTo negative (signed negative v) (ofRank negative rank) := by
  have habs : |signed negative v| = v := by rw [abs_signed, abs_of_nonneg hv]
  -- A number of the same sign is as far away as the magnitudes are from each other, and one of
  -- the other sign as far as their sum.
  have hsame : ∀ s, |signed negative v - value negative s| = |v - value false s| := fun s => by
    rw [value_eq_signed, signed_sub_signed, abs_signed]
  have hother : ∀ s, |signed negative v - value (!negative) s| = v + value false s := fun s => by
    rw [value_eq_signed, signed_sub_signed_not, abs_signed,
      abs_of_nonneg (add_nonneg hv (value_nonneg s))]
  have hsign : ∀ m, m = negative ∨ m = !negative := fun m => by cases m <;> cases negative <;> simp
  by_cases hlt : rank < rankCount
  · rw [ofRank_of_lt negative hlt]
    refine .finite (habs.trans_lt (h.lt_rankCount_iff.1 hlt)) (fun m s => ?_)
      (fun m s hne htie => ?_)
    · rcases hsign m with rfl | rfl
      · rw [hsame, hsame]
        exact h.abs_sub_le s
      · rw [hsame, hother]
        have hpos := value_nonneg s
        exact (h.abs_sub_le s).trans (abs_le.2 ⟨by linarith, by linarith⟩)
    · rcases hsign m with rfl | rfl
      · rw [hsame, hsame] at htie
        exact h.even_of_abs_sub_eq (fun heq => hne (congrArg _ heq)) htie
      · -- A number of the other sign is as near only if it is a zero, and so is the other zero.
        rw [hsame, hother] at htie
        have hzero : |v - value false 0| = v := by rw [value_zero, sub_zero, abs_of_nonneg hv]
        have hle := h.abs_sub_le 0
        have hpos := value_nonneg s
        rcases Nat.eq_zero_or_pos rank with rfl | hrank
        · rfl
        · exact h.even_of_abs_sub_eq hrank.ne (by linarith)
  · rw [ofRank, dif_neg hlt]
    exact .infinite (habs.symm ▸ not_lt.1 (mt h.lt_rankCount_iff.2 hlt))

/-- With signs, a smaller value is not rounded to a greater number. -/
theorem le_of_signed_le {v' : ℚ} {rank' : Nat} {m n : Bool} (h : IsRounded v rank)
    (h' : IsRounded v' rank') (hv : 0 ≤ v) (hv' : 0 ≤ v') (hle : signed m v ≤ signed n v') :
    (ofRank m rank).le (ofRank n rank') := by
  have hunits : ∀ {v v' rank rank'}, IsRounded v rank → IsRounded v' rank' → v ≤ v' →
      units (min rank rankCount) ≤ units (min rank' rankCount) := fun h h' hle =>
    units_le_units_iff.2 (min_le_min_right rankCount (h.mono h' hle))
  rw [le, place?_ofRank, place?_ofRank]
  refine decide_eq_true ?_
  cases m with
  | false =>
    cases n with
    | false => exact Int.ofNat_le.2 (hunits h h' hle)
    | true =>
      -- Both are zero.
      have hneg : v ≤ -v' := hle
      have hleast : (0 : ℚ) ≤ 1 / 2 ^ 1075 := by positivity
      have hzero := h.eq_zero_iff.2 ((show v ≤ 0 by linarith).trans hleast)
      have hzero' := h'.eq_zero_iff.2 ((show v' ≤ 0 by linarith).trans hleast)
      rw [hzero, hzero', Nat.zero_min, signedUnits_eq_zero_iff.2 rfl, signedUnits_eq_zero_iff.2 rfl]
  | true =>
    cases n with
    | false =>
      simp only [signedUnits, Bool.false_eq_true, if_false, if_true]
      omega
    | true => exact Int.neg_le_neg (Int.ofNat_le.2 (hunits h' h (neg_le_neg_iff.1 hle)))

end IsRounded

end MiniLisp.Binary64
