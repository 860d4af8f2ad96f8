/-
# Zero in sums

The positive zero added to a number gives the number, unless it is the negative zero, and a sum
is the negative zero only if both numbers are.  These two laws are all that sums of many numbers
rest on: addition is not associative.
-/
import MiniLisp.Binary64.Arithmetic
import MiniLisp.Proofs.Binary64.Monotone

namespace MiniLisp.Binary64

lemma zero_eq (negative : Bool) : zero negative = .finite negative ⟨0, by decide⟩ :=
  ofRank_of_lt negative (by decide)

lemma isZero_iff {x : Binary64} : x.isZero ↔ ∃ negative, x = zero negative := by
  simp only [zero_eq]
  cases x with
  | finite negative rank => simp only [isZero, decide_eq_true_eq, finite.injEq, Fin.ext_iff,
      exists_eq_left']
  | _ => simp only [isZero, reduceCtorEq, exists_false, Bool.false_eq_true]

/-- A finite number is the number nearest to its own value. -/
lemma nearest_units (negative : Bool) (rank : Fin rankCount) :
    nearest negative (units rank) 1 = .finite negative rank := by
  rw [nearest, nearestRank_units, ofRank_val]

lemma signedUnits_eq_zero_iff {negative : Bool} {rank : Nat} :
    signedUnits negative rank = 0 ↔ rank = 0 := by
  rw [← units_eq_zero_iff]
  cases negative <;> simp [signedUnits]

lemma natAbs_signedUnits (negative : Bool) (rank : Nat) :
    (signedUnits negative rank).natAbs = units rank := by
  cases negative <;> simp [signedUnits]

lemma signedUnits_neg_iff {negative : Bool} {rank : Nat} (h : rank ≠ 0) :
    signedUnits negative rank < 0 ↔ negative = true := by
  have hpos : 0 < units rank := Nat.pos_of_ne_zero fun hzero => h (units_eq_zero_iff.1 hzero)
  cases negative with
  | false => simp [signedUnits]
  | true =>
    simp only [signedUnits, if_true, iff_true]
    omega

/-- The positive zero is neutral but for the negative zero. -/
theorem zero_add {x : Binary64} (h : x ≠ zero true) : add (zero false) x = x := by
  rw [zero_eq] at h ⊢
  cases x with
  | nan => rfl
  | infinite negative => rfl
  | finite negative rank =>
    have hsum : signedUnits false 0 + signedUnits negative rank = signedUnits negative rank := by
      rw [signedUnits_eq_zero_iff.2 rfl, Int.zero_add]
    simp only [add, hsum]
    by_cases hrank : rank.val = 0
    · obtain rfl : rank = ⟨0, by decide⟩ := Fin.ext hrank
      cases negative with
      | false => rw [if_pos (signedUnits_eq_zero_iff.2 rfl), Bool.false_and, zero_eq]
      | true => exact absurd rfl h
    · rw [if_neg (mt signedUnits_eq_zero_iff.1 hrank), natAbs_signedUnits]
      simp only [signedUnits_neg_iff hrank, Bool.decide_eq_true]
      exact nearest_units negative rank

/-- A sum is the negative zero only if both numbers are. -/
theorem eq_of_add_eq_zero {x y : Binary64} (h : add x y = zero true) :
    x = zero true ∧ y = zero true := by
  rw [zero_eq] at h ⊢
  match x, y with
  | .nan, _ => simp [add] at h
  | .infinite m, .nan => simp [add] at h
  | .finite m r, .nan => simp [add] at h
  | .infinite m, .infinite n =>
    simp only [add] at h
    split at h <;> cases h
  | .infinite m, .finite n s => cases h
  | .finite m r, .infinite n => cases h
  | .finite m r, .finite n s =>
    simp only [add] at h
    split at h
    · rename_i hsum
      -- Both are negative and their magnitudes add up to zero.
      rw [zero_eq, finite.injEq, Bool.and_eq_true] at h
      obtain ⟨⟨rfl, rfl⟩, -⟩ := h
      simp only [signedUnits, if_true] at hsum
      have hr : r = ⟨0, by decide⟩ := Fin.ext (units_eq_zero_iff.1 (by omega))
      have hs : s = ⟨0, by decide⟩ := Fin.ext (units_eq_zero_iff.1 (by omega))
      exact ⟨by rw [hr], by rw [hs]⟩
    · rename_i hsum
      have hpos := nearestRank_pos (Int.natAbs_pos.2 hsum)
      rw [nearest, ofRank] at h
      split at h
      · rw [finite.injEq, Fin.mk.injEq] at h
        exact absurd h.2 (Nat.ne_of_gt hpos)
      · cases h

end MiniLisp.Binary64
