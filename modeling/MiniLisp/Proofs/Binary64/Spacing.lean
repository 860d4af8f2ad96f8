/-
# How far apart magnitudes are

Around a magnitude the magnitudes are evenly spaced, by a power of two that fits into the
magnitude fewer than `2 ^ 53` times.  A fraction is rounded up from the middle between two
magnitudes on (`lt_nearestRank_iff`).  So a fraction that lies below a magnitude, but not half as
far as the magnitude before it, is rounded to the magnitude.
-/
import MiniLisp.Proofs.Binary64.Monotone

namespace MiniLisp

/-- A quotient is rounded to more than a whole number from a half above it on, but a half itself
only if the whole number is odd. -/
lemma lt_roundDiv_iff {n num den : Nat} (hden : 0 < den) :
    n < roundDiv num den ↔
      (2 * n + 1) * den < 2 * num ∨ (2 * n + 1) * den = 2 * num ∧ n % 2 = 1 := by
  have hdiv := Nat.div_add_mod num den
  have hmod := Nat.mod_lt num hden
  have hexpand : (2 * n + 1) * den = 2 * (den * n) + den := by
    rw [Nat.add_mul, Nat.mul_assoc, Nat.mul_comm n, Nat.one_mul]
  rw [hexpand]
  rcases Nat.lt_trichotomy n (num / den) with hlt | rfl | hgt
  · have hbelow : den * n + den ≤ den * (num / den) := Nat.mul_le_mul_left den hlt
    exact iff_of_true (Nat.lt_of_lt_of_le hlt (div_le_roundDiv _ _)) (Or.inl (by omega))
  · simp only [roundDiv]
    split <;> omega
  · have habove : den * (num / den) + den ≤ den * n := Nat.mul_le_mul_left den hgt
    refine iff_of_false (Nat.not_lt_of_le ?_) (by omega)
    exact Nat.le_trans (roundDiv_le_div_add_one _ _) hgt

namespace Binary64

/-! ### Magnitudes on a scale -/

/-- Where a scale ends the next one begins. -/
lemma scale_mul_add (scale : Nat) :
    scale * Nat.pow 2 52 + Nat.pow 2 53 = (scale + 1 + 1) * Nat.pow 2 52 := by
  rw [Nat.succ_mul, Nat.succ_mul, Nat.add_assoc]

section

variable {scale count : Nat} (hcount : scale = 0 ∨ Nat.pow 2 52 ≤ count)

include hcount

/-- A magnitude is the count of steps of its scale that fits into it. -/
lemma units_scaled (hle : count ≤ Nat.pow 2 53) :
    units (scale * Nat.pow 2 52 + count) = count * Nat.pow 2 scale := by
  rcases Nat.lt_or_eq_of_le hle with hlt | rfl
  · rcases Nat.lt_or_ge count (Nat.pow 2 52) with hsmall | hlarge
    · obtain rfl : scale = 0 := hcount.resolve_right (Nat.not_le_of_lt hsmall)
      rw [Nat.zero_mul, Nat.zero_add, units_of_lt hsmall]
      exact (Nat.mul_one count).symm
    · have hplace : count - Nat.pow 2 52 < Nat.pow 2 52 := by
        have hdouble : Nat.pow 2 53 = Nat.pow 2 52 + Nat.pow 2 52 := by decide
        omega
      have hunits := units_add scale hplace
      rw [Nat.add_sub_cancel' hlarge] at hunits
      rw [← hunits, Nat.succ_mul, Nat.add_assoc, Nat.add_sub_cancel' hlarge]
  · -- The last count of a scale is the first one of the next scale.
    have hunits : units ((scale + 1 + 1) * Nat.pow 2 52 + 0) =
        (Nat.pow 2 52 + 0) * Nat.pow 2 (scale + 1) := units_add (scale + 1) (by decide)
    rw [Nat.add_zero, Nat.add_zero] at hunits
    rw [scale_mul_add, hunits]
    show _ * (Nat.pow 2 scale * 2) = _
    rw [Nat.mul_comm (Nat.pow 2 scale), ← Nat.mul_assoc]

end

/-- Every place has a scale, which the next place has too. -/
lemma exists_scale (rank : Nat) : ∃ scale count, count < Nat.pow 2 53 ∧
    (scale = 0 ∨ Nat.pow 2 52 ≤ count) ∧ rank = scale * Nat.pow 2 52 + count ∧
      units rank = count * Nat.pow 2 scale ∧ units (rank + 1) = (count + 1) * Nat.pow 2 scale := by
  obtain ⟨scale, count, hlt, hcount, hrank⟩ : ∃ scale count, count < Nat.pow 2 53 ∧
      (scale = 0 ∨ Nat.pow 2 52 ≤ count) ∧ rank = scale * Nat.pow 2 52 + count := by
    rcases Nat.lt_or_ge rank (Nat.pow 2 52) with hsmall | hlarge
    · exact ⟨0, rank, Nat.lt_trans hsmall (by decide), .inl rfl, by omega⟩
    · refine ⟨rank / Nat.pow 2 52 - 1, Nat.pow 2 52 + rank % Nat.pow 2 52, ?_, .inr ?_, ?_⟩
      · exact Nat.add_lt_add_left (Nat.mod_lt rank (by decide)) _
      · exact Nat.le_add_right _ _
      · have hdiv := Nat.div_add_mod rank (Nat.pow 2 52)
        have hpos : 0 < rank / Nat.pow 2 52 := Nat.div_pos hlarge (by decide)
        rw [Nat.sub_mul, Nat.one_mul, Nat.mul_comm (rank / _)]
        have hge := Nat.le_mul_of_pos_right (Nat.pow 2 52) hpos
        omega
  refine ⟨scale, count, hlt, hcount, hrank, ?_, ?_⟩
  · rw [hrank, units_scaled hcount (Nat.le_of_lt hlt)]
  · rw [hrank, Nat.add_assoc, units_scaled (by omega) hlt]

/-- The next magnitude is at most twice as large, but for the first one. -/
lemma units_succ_le (rank : Nat) : units (rank + 1) ≤ 2 * units rank + 1 := by
  obtain ⟨scale, count, -, hcount, -, hunits, hnext⟩ := exists_scale rank
  rw [hunits, hnext]
  rcases hcount with rfl | hlarge
  · show (count + 1) * 1 ≤ 2 * (count * 1) + 1
    omega
  · have hpos : 0 < count := Nat.lt_of_lt_of_le (by decide) hlarge
    have hscale := Nat.le_mul_of_pos_left (Nat.pow 2 scale) hpos
    rw [Nat.succ_mul]
    omega

/-- The spacing fits fewer than `2 ^ 53` times into a magnitude, and it is not nothing. -/
lemma units_succ_le_mul_sub (rank : Nat) :
    units (rank + 1) ≤ Nat.pow 2 53 * (units (rank + 1) - units rank) := by
  obtain ⟨scale, count, hlt, -, -, hunits, hnext⟩ := exists_scale rank
  rw [hunits, hnext, ← Nat.sub_mul, Nat.add_sub_cancel_left, Nat.one_mul]
  exact Nat.mul_le_mul_right _ hlt

/-! ### Where rounding turns -/

section

variable {rank num den : Nat} (hden : 0 < den)

include hden

/-- A place before the scale of a fraction is far below the fraction. -/
lemma lt_nearestRank_of_lt_scale (hpos : 0 < scaleOf num den)
    (h : rank < scaleOf num den * Nat.pow 2 52 + Nat.pow 2 52) :
    rank < nearestRank num den ∧ (units rank + units (rank + 1)) * den < 2 * num := by
  have hstep : 0 < den * Nat.pow 2 (scaleOf num den) := Nat.mul_pos hden (Nat.pow_pos (by decide))
  have hnext : units (rank + 1) ≤ Nat.pow 2 52 * Nat.pow 2 (scaleOf num den) := by
    rw [← units_scaled (Or.inr (Nat.le_refl _)) (by decide)]
    exact units_le_units_iff.2 h
  have hsucc : units rank < units (rank + 1) := units_lt_units_iff.2 (Nat.lt_succ_self rank)
  refine ⟨Nat.lt_of_lt_of_le h (Nat.add_le_add_left (le_roundDiv_scaled hpos) _), ?_⟩
  calc (units rank + units (rank + 1)) * den
      < 2 * (Nat.pow 2 52 * Nat.pow 2 (scaleOf num den)) * den :=
        Nat.mul_lt_mul_of_pos_right (by omega) hden
    _ = 2 * (Nat.pow 2 52 * (den * Nat.pow 2 (scaleOf num den))) := by
        rw [Nat.mul_assoc 2, Nat.mul_assoc, Nat.mul_comm den]
    _ ≤ 2 * num :=
        Nat.mul_le_mul_left 2 ((Nat.le_div_iff_mul_le hstep).1 (le_div_scaled hpos))

/-- A place behind the scale of a fraction is far above the fraction. -/
lemma nearestRank_le_of_scale_le (h : scaleOf num den * Nat.pow 2 52 + Nat.pow 2 53 ≤ rank) :
    nearestRank num den ≤ rank ∧ 2 * num < (units rank + units (rank + 1)) * den := by
  have hstep : 0 < den * Nat.pow 2 (scaleOf num den) := Nat.mul_pos hden (Nat.pow_pos (by decide))
  have hrank : Nat.pow 2 53 * Nat.pow 2 (scaleOf num den) ≤ units rank := by
    rw [← units_scaled (Or.inr (by decide)) (Nat.le_refl _)]
    exact units_le_units_iff.2 h
  have hsucc : units rank < units (rank + 1) := units_lt_units_iff.2 (Nat.lt_succ_self rank)
  refine ⟨Nat.le_trans (Nat.add_le_add_left (roundDiv_scaled_le num den) _) h, ?_⟩
  calc 2 * num < 2 * (Nat.pow 2 53 * (den * Nat.pow 2 (scaleOf num den))) :=
        Nat.mul_lt_mul_of_pos_left ((Nat.div_lt_iff_lt_mul hstep).1 (div_scaled_lt num den))
          (by decide)
    _ = 2 * (Nat.pow 2 53 * Nat.pow 2 (scaleOf num den)) * den := by
        rw [Nat.mul_assoc 2, Nat.mul_assoc (Nat.pow 2 53), Nat.mul_comm den]
    _ ≤ (units rank + units (rank + 1)) * den := Nat.mul_le_mul_right den (by omega)

/-- On the scale of a fraction rounding it is rounding its quotient by a step of the scale. -/
lemma lt_nearestRank_iff_of_scaled {count : Nat}
    (hcount : scaleOf num den = 0 ∨ Nat.pow 2 52 ≤ count) (hlt : count < Nat.pow 2 53)
    (hrank : rank = scaleOf num den * Nat.pow 2 52 + count) :
    rank < nearestRank num den ↔ (units rank + units (rank + 1)) * den < 2 * num ∨
      (units rank + units (rank + 1)) * den = 2 * num ∧ rank % 2 = 1 := by
  have hstep : 0 < den * Nat.pow 2 (scaleOf num den) := Nat.mul_pos hden (Nat.pow_pos (by decide))
  have hparity : rank % 2 = count % 2 := by
    have heven : Nat.pow 2 52 = 2 * Nat.pow 2 51 := by decide
    rw [hrank, heven, Nat.mul_left_comm, Nat.mul_add_mod]
  have hmiddle : (units rank + units (rank + 1)) * den =
      (2 * count + 1) * (den * Nat.pow 2 (scaleOf num den)) := by
    rw [hrank, units_scaled hcount (Nat.le_of_lt hlt), Nat.add_assoc,
      units_scaled (hcount.imp_right Nat.le_succ_of_le) hlt, ← Nat.add_mul, Nat.mul_comm den,
      Nat.mul_assoc]
    congr 1
    omega
  rw [hmiddle, hparity, ← lt_roundDiv_iff hstep, hrank, nearestRank]
  exact Nat.add_lt_add_iff_left

/-- **A fraction is rounded beyond a place from the middle to the next one on, but the middle
itself only if the place is odd.** -/
theorem lt_nearestRank_iff :
    rank < nearestRank num den ↔ (units rank + units (rank + 1)) * den < 2 * num ∨
      (units rank + units (rank + 1)) * den = 2 * num ∧ rank % 2 = 1 := by
  rcases Nat.lt_or_ge rank (scaleOf num den * Nat.pow 2 52 + Nat.pow 2 53) with hlt | habove
  · by_cases hin : scaleOf num den = 0 ∨ scaleOf num den * Nat.pow 2 52 + Nat.pow 2 52 ≤ rank
    · have hle : scaleOf num den * Nat.pow 2 52 ≤ rank := by
        rcases hin with hzero | hin
        · rw [hzero, Nat.zero_mul]
          exact Nat.zero_le rank
        · exact Nat.le_of_add_right_le hin
      exact lt_nearestRank_iff_of_scaled hden (hin.imp_right (Nat.le_sub_of_add_le' ·))
        (Nat.sub_lt_left_of_lt_add hle hlt) (Nat.add_sub_cancel' hle).symm
    · obtain ⟨hpos, hbelow⟩ := not_or.1 hin
      obtain ⟨hrank, hmiddle⟩ :=
        lt_nearestRank_of_lt_scale hden (Nat.pos_of_ne_zero hpos) (Nat.lt_of_not_le hbelow)
      exact iff_of_true hrank (Or.inl hmiddle)
  · obtain ⟨hrank, hmiddle⟩ := nearestRank_le_of_scale_le hden habove
    exact iff_of_false (Nat.not_lt_of_le hrank) (by omega)

end

/-- What lies beyond twice a magnitude is rounded to a greater place. -/
lemma lt_nearestRank {rank num den : Nat} (hden : 0 < den)
    (h : (2 * units rank + 1) * den ≤ num) : rank < nearestRank num den := by
  have hmono : nearestRank (units (rank + 1)) 1 ≤ nearestRank num den := by
    refine nearestRank_mono Nat.zero_lt_one hden ?_
    rw [Nat.mul_one]
    exact Nat.le_trans (Nat.mul_le_mul_right den (units_succ_le rank)) h
  rwa [nearestRank_units] at hmono

/-- What lies below a magnitude by at most a part in `2 ^ 55` is rounded to it. -/
lemma nearestRank_eq_of_close {rank num den : Nat} (hden : 0 < den)
    (hle : num ≤ units rank * den)
    (hclose : Nat.pow 2 55 * (units rank * den - num) ≤ units rank * den) :
    nearestRank num den = rank := by
  have hupper : nearestRank num den ≤ rank := by
    have hmono : nearestRank num den ≤ nearestRank (units rank) 1 := by
      refine nearestRank_mono hden Nat.zero_lt_one ?_
      rwa [Nat.mul_one]
    rwa [nearestRank_units] at hmono
  refine Nat.le_antisymm hupper (Nat.le_of_not_lt fun hlt => ?_)
  -- The fraction would be on the other side of the middle between two magnitudes.
  obtain ⟨before, rfl⟩ : ∃ before, rank = before + 1 := ⟨rank - 1, by omega⟩
  have hspacing := units_succ_le_mul_sub before
  have hmiddle := mt (fun h => (lt_nearestRank_iff hden).2 (Or.inl h))
    (Nat.not_lt_of_le (Nat.le_of_lt_succ hlt))
  have hstep := Nat.mul_le_mul_right den hspacing
  have hunits : units before ≤ units (before + 1) := units_le_units_iff.2 (Nat.le_succ _)
  have hpos : 0 < units (before + 1) * den :=
    Nat.mul_pos (Nat.pos_of_ne_zero fun hzero => absurd (units_eq_zero_iff.1 hzero) (by omega)) hden
  rw [Nat.mul_assoc, Nat.sub_mul] at hstep
  rw [Nat.add_mul] at hmiddle
  have hunits' := Nat.mul_le_mul_right den hunits
  generalize units (before + 1) * den = upper at *
  generalize units before * den = lower at *
  have h53 : Nat.pow 2 53 = 9007199254740992 := by decide
  have h55 : Nat.pow 2 55 = 36028797018963968 := by decide
  rw [h53] at hstep
  rw [h55] at hclose
  omega

end Binary64

end MiniLisp
