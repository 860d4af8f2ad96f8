/-
# Exact values and their order

A finite number has an exact value, a rational number, and the infinities come before and behind
all of these.  The places that numbers are compared by are in the order of the exact values, so a
comparison of two numbers is the comparison of their exact values; what is not a number has none
and stands in no relation.
-/
import Mathlib.Algebra.Order.Field.Rat
import Mathlib.Order.WithBot
import Mathlib.Tactic.Positivity
import MiniLisp.Proofs.Binary64.Monotone
import MiniLisp.Proofs.Binary64.Sum

namespace MiniLisp.Binary64

/-- The exact value of the finite number of a sign and a rank. -/
def value (negative : Bool) (rank : Nat) : ℚ := signedUnits negative rank / 2 ^ unitExponent

/-- The rational numbers with a least and a greatest value besides them. -/
abbrev Extended : Type := WithBot (WithTop ℚ)

/-- The exact value of a number, those of the infinities included. -/
def value? : Binary64 → Option Extended
  | .nan => none
  | .finite negative rank => some (value negative rank : WithTop ℚ)
  | .infinite true => some ⊥
  | .infinite false => some (⊤ : WithTop ℚ)

/-- Two numbers have exact values, and these stand in a relation. -/
def Compare (related : Extended → Extended → Prop) (x y : Binary64) : Prop :=
  ∃ a b, x.value? = some a ∧ y.value? = some b ∧ related a b

/-! ### Values and places -/

lemma value_le_value_iff {m n : Bool} {r s : Nat} :
    value m r ≤ value n s ↔ signedUnits m r ≤ signedUnits n s := by
  have hunit : (0 : ℚ) < 2 ^ unitExponent := by positivity
  rw [value, value, div_le_div_iff_of_pos_right hunit, Int.cast_le]

/-- Finite numbers are between the infinities. -/
lemma signedUnits_between (m : Bool) (r : Fin rankCount) :
    -(units rankCount : Int) < signedUnits m r ∧ signedUnits m r < units rankCount := by
  have hlt : units r < units rankCount :=
    Nat.lt_of_not_le fun hle => absurd (units_le_units_iff.1 hle) (Nat.not_le_of_lt r.isLt)
  cases m <;> simp only [signedUnits, Bool.false_eq_true, if_false, if_true] <;> omega

/-- The place of the one infinity is before that of the other. -/
lemma signedUnits_true_lt_false : signedUnits true rankCount < signedUnits false rankCount := by
  have hpos : 0 < units rankCount := Nat.pos_of_ne_zero (mt units_eq_zero_iff.1 (by decide))
  simp only [signedUnits, Bool.false_eq_true, if_false, if_true]
  omega

/-- Places are in the order of the exact values. -/
lemma place_le_iff {x y : Binary64} {a b : Int} {u v : Extended} (hx : x.place? = some a)
    (hy : y.place? = some b) (hu : x.value? = some u) (hv : y.value? = some v) :
    a ≤ b ↔ u ≤ v := by
  cases x with
  | nan => cases hx
  | finite m r =>
    obtain ⟨hlower, hupper⟩ := signedUnits_between m r
    cases hx
    cases hu
    cases y with
    | nan => cases hy
    | finite n s =>
      cases hy
      cases hv
      rw [WithBot.coe_le_coe, WithTop.coe_le_coe, value_le_value_iff]
    | infinite n =>
      cases hy
      cases n with
      | false =>
        cases hv
        exact iff_of_true hupper.le (WithBot.coe_le_coe.2 le_top)
      | true =>
        cases hv
        exact iff_of_false hlower.not_ge (WithBot.not_coe_le_bot _)
  | infinite m =>
    cases hx
    cases m with
    | false =>
      cases hu
      cases y with
      | nan => cases hy
      | finite n s =>
        cases hy
        cases hv
        refine iff_of_false (signedUnits_between n s).2.not_ge fun hle => ?_
        exact WithTop.not_top_le_coe _ (WithBot.coe_le_coe.1 hle)
      | infinite n =>
        cases hy
        cases n with
        | false =>
          cases hv
          exact iff_of_true le_rfl le_rfl
        | true =>
          cases hv
          refine iff_of_false (not_le_of_gt ?_) (WithBot.not_coe_le_bot _)
          exact signedUnits_true_lt_false
    | true =>
      cases hu
      refine iff_of_true ?_ bot_le
      cases y with
      | nan => cases hy
      | finite n s =>
        cases hy
        exact (signedUnits_between n s).1.le
      | infinite n =>
        cases hy
        cases n with
        | false => exact signedUnits_true_lt_false.le
        | true => exact le_rfl

/-- Either a number is not a number, or it has a place and an exact value. -/
lemma eq_nan_or_exists (x : Binary64) :
    x = .nan ∨ ∃ a u, x.place? = some a ∧ x.value? = some u := by
  cases x with
  | nan => exact Or.inl rfl
  | finite m r => exact Or.inr ⟨_, _, rfl, rfl⟩
  | infinite m => cases m <;> exact Or.inr ⟨_, _, rfl, rfl⟩

/-! ### Comparing -/

/-- What is compared is a number. -/
lemma Compare.ne_nan {related : Extended → Extended → Prop} {x y : Binary64}
    (h : Compare related x y) : x ≠ .nan ∧ y ≠ .nan := by
  obtain ⟨a, b, hx, hy, -⟩ := h
  refine ⟨?_, ?_⟩
  · rintro rfl
    cases hx
  · rintro rfl
    cases hy

instance {related : Extended → Extended → Prop} [IsTrans Extended related] :
    IsTrans Binary64 (Compare related) where
  trans x y z hxy hyz := by
    obtain ⟨a, b, hx, hy, hab⟩ := hxy
    obtain ⟨b', c, hy', hz, hbc⟩ := hyz
    obtain rfl : b = b' := Option.some.inj (hy.symm.trans hy')
    exact ⟨a, c, hx, hz, IsTrans.trans a b c hab hbc⟩

lemma Compare.related_iff {related : Extended → Extended → Prop} {x y : Binary64} {u v : Extended}
    (hx : x.value? = some u) (hy : y.value? = some v) : Compare related x y ↔ related u v := by
  simp only [Compare, hx, hy, Option.some.injEq, exists_eq_left', existsAndEq, true_and]

/-- The comparison of places is that of the exact values. -/
lemma le_iff {x y : Binary64} : x.le y ↔ Compare (· ≤ ·) x y := by
  rcases eq_nan_or_exists x with rfl | ⟨a, u, ha, hu⟩
  · exact iff_of_false Bool.false_ne_true fun h => h.ne_nan.1 rfl
  rcases eq_nan_or_exists y with rfl | ⟨b, v, hb, hv⟩
  · rw [le, ha]
    exact iff_of_false Bool.false_ne_true fun h => h.ne_nan.2 rfl
  rw [Compare.related_iff hu hv, ← place_le_iff ha hb hu hv, le, ha, hb]
  exact decide_eq_true_iff

lemma lt_iff {x y : Binary64} : x.lt y ↔ Compare (· < ·) x y := by
  rcases eq_nan_or_exists x with rfl | ⟨a, u, ha, hu⟩
  · exact iff_of_false Bool.false_ne_true fun h => h.ne_nan.1 rfl
  rcases eq_nan_or_exists y with rfl | ⟨b, v, hb, hv⟩
  · rw [lt, ha]
    exact iff_of_false Bool.false_ne_true fun h => h.ne_nan.2 rfl
  rw [Compare.related_iff hu hv, ← not_le, ← place_le_iff hb ha hv hu, not_le, lt, ha, hb]
  exact decide_eq_true_iff

/-! ### Agreeing -/

/-- A place that is not that of the zeros belongs to one sign and one rank. -/
lemma signedUnits_eq_iff {m n : Bool} {r s : Nat} :
    signedUnits m r = signedUnits n s ↔ r = s ∧ (m = n ∨ r = 0) := by
  constructor
  · intro h
    have hunits : units r = units s := by
      rw [← natAbs_signedUnits m r, h, natAbs_signedUnits]
    obtain rfl : r = s :=
      le_antisymm (units_le_units_iff.1 hunits.le) (units_le_units_iff.1 hunits.ge)
    refine ⟨rfl, or_iff_not_imp_right.2 fun hr => Bool.eq_iff_iff.2 ?_⟩
    rw [← signedUnits_neg_iff hr, h, signedUnits_neg_iff hr]
  · rintro ⟨rfl, rfl | rfl⟩
    · rfl
    · rw [signedUnits_eq_zero_iff.2 rfl, signedUnits_eq_zero_iff.2 rfl]

/-- Numbers that agree are one number or are zeros, and what is not a number does not agree. -/
lemma agrees_iff {x y : Binary64} : x.agrees y ↔ x ≠ .nan ∧ (x = y ∨ x.isZero ∧ y.isZero) := by
  cases x with
  | nan => simp [agrees, place?]
  | finite m r =>
    cases y with
    | nan => simp [agrees, place?, isZero]
    | finite n s =>
      simp only [agrees, place?, decide_eq_true_eq, signedUnits_eq_iff, isZero, finite.injEq,
        Fin.ext_iff, ne_eq, reduceCtorEq, not_false_eq_true, true_and]
      constructor
      · rintro ⟨hrank, hsign | hzero⟩
        · exact Or.inl ⟨hsign, hrank⟩
        · exact Or.inr ⟨hzero, hrank ▸ hzero⟩
      · rintro (⟨hsign, hrank⟩ | ⟨hr, hs⟩)
        · exact ⟨hrank, Or.inl hsign⟩
        · exact ⟨hr.trans hs.symm, Or.inr hr⟩
    | infinite n =>
      have hne : (r : Nat) ≠ rankCount := r.isLt.ne
      simp [agrees, place?, signedUnits_eq_iff, hne, isZero]
  | infinite m =>
    cases y with
    | nan => simp [agrees, place?, isZero]
    | finite n s =>
      have hne : rankCount ≠ (s : Nat) := s.isLt.ne'
      simp [agrees, place?, signedUnits_eq_iff, hne, isZero]
    | infinite n => simp [agrees, place?, signedUnits_eq_iff, isZero]

end MiniLisp.Binary64
