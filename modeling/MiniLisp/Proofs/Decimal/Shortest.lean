/-
# No decimal with fewer digits reads back

The multiples of a power of ten are multiples of every smaller one, so where no decimal of a grid
reads back, none of a coarser grid does; and since rounding is monotone, the two multiples around a
number tell whether any decimal of the grid does.  So the search stops at the coarsest grid that
holds a decimal reading back, and it does stop: its last grid is so fine that the multiple below
the number is rounded to it.  A decimal with fewer digits than the one that was found would have a
power of ten beside it on a coarser grid.
-/
import MiniLisp.Proofs.Binary64.Spacing
import MiniLisp.Proofs.Decimal.ReadBack

namespace MiniLisp.Decimal

/-! ### Grids -/

lemma nearestRank_mono {c c' : Nat} (e : Int) (h : c ≤ c') : nearestRank c e ≤ nearestRank c' e :=
  Binary64.nearestRank_mono_left _ (Nat.mul_le_mul_right _ h)

section

variable (rank : Nat) (e : Int)

/-- The magnitude lies between two multiples of the grid, and their places around its own. -/
lemma nearestRank_below_le :
    nearestRank (Binary64.units rank * stepDen e / stepNum e) e ≤ rank := by
  have hle : Binary64.units rank * stepDen e / stepNum e * stepNum e * 1 ≤
      Binary64.units rank * stepDen e := by
    rw [Nat.mul_one]
    exact Nat.div_mul_le_self _ _
  have hmono := Binary64.nearestRank_mono (stepDen_pos e) Nat.zero_lt_one hle
  rwa [Binary64.nearestRank_units] at hmono

lemma stepNum_pos (e : Int) : 0 < stepNum e :=
  Nat.mul_pos (Nat.pow_pos (by decide)) (Nat.pow_pos (by decide))

lemma le_nearestRank_above :
    rank ≤ nearestRank (Binary64.units rank * stepDen e / stepNum e + 1) e := by
  have hle : Binary64.units rank * stepDen e ≤
      (Binary64.units rank * stepDen e / stepNum e + 1) * stepNum e * 1 := by
    rw [Nat.mul_one, Nat.mul_comm (_ + 1)]
    exact Nat.le_of_lt (Nat.lt_mul_div_succ _ (stepNum_pos e))
  have hmono := Binary64.nearestRank_mono Nat.zero_lt_one (stepDen_pos e) hle
  rwa [Binary64.nearestRank_units] at hmono

variable {rank e}

/-- If neither of the two multiples around a magnitude reads back, no multiple does. -/
lemma nearestRank_ne_of_onGrid? (h : onGrid? rank e = none) (c : Nat) : nearestRank c e ≠ rank := by
  have hbelow := nearestRank_below_le rank e
  have habove := le_nearestRank_above rank e
  rw [onGrid?] at h
  intro hc
  split at h
  · split at h <;> cases h
  · rename_i hnot
    split at h
    · cases h
    · rename_i hnot'
      rcases Nat.lt_or_ge (Binary64.units rank * stepDen e / stepNum e) c with hlt | hge
      · have hmono := nearestRank_mono e hlt
        rw [hc] at hmono
        exact hnot' (Nat.le_antisymm hmono habove)
      · have hmono := nearestRank_mono e hge
        rw [hc] at hmono
        exact hnot (Nat.le_antisymm hbelow hmono)

/-- The grid has a decimal that reads back if the multiple below does. -/
lemma onGrid?_ne_none
    (h : nearestRank (Binary64.units rank * stepDen e / stepNum e) e = rank) :
    onGrid? rank e ≠ none := fun hnone => nearestRank_ne_of_onGrid? hnone _ h

end

/-! ### The search -/

/-- No decimal on a grid coarser than the one of an exponent reads back, but for zero. -/
def NoneAbove (rank : Nat) (exponent : Int) : Prop :=
  ∀ c e, 0 < c → exponent < e → nearestRank c e ≠ rank

/-- What is true of a grid is true of the coarser ones. -/
lemma noneAbove_of_onGrid? {rank : Nat} {e : Int} (h : onGrid? rank e = none) :
    NoneAbove rank (e - 1) := by
  intro c e' _ hlt
  obtain ⟨n, rfl⟩ : ∃ n : Nat, e' = e + n := ⟨(e' - e).toNat, by omega⟩
  rw [← nearestRank_mul_pow]
  exact nearestRank_ne_of_onGrid? h _

lemma noneAbove_of_search? {negative : Bool} {rank steps : Nat} {start : Int} {d : Decimal}
    (hstart : NoneAbove rank start) (h : search? negative rank steps start = some d) :
    NoneAbove rank d.exponent := by
  induction steps generalizing start with
  | zero => cases h
  | succ steps ih =>
    rw [search?] at h
    cases hgrid : onGrid? rank start with
    | none =>
      rw [hgrid] at h
      exact ih (noneAbove_of_onGrid? hgrid) h
    | some c =>
      rw [hgrid] at h
      rwa [← Option.some.inj h]

/-- The search succeeds if one of its grids has a decimal that reads back. -/
lemma search?_ne_none {negative : Bool} {rank steps : Nat} {start : Int} {n : Nat} (hn : n < steps)
    (h : onGrid? rank (start - n) ≠ none) : search? negative rank steps start ≠ none := by
  induction steps generalizing start n with
  | zero => exact absurd hn (Nat.not_lt_zero n)
  | succ steps ih =>
    rw [search?]
    cases hgrid : onGrid? rank start with
    | some c => exact Option.some_ne_none _
    | none =>
      cases n with
      | zero => exact absurd hgrid (by simpa using h)
      | succ n =>
        refine ih (Nat.lt_of_succ_lt_succ hn) ?_
        rwa [show start - (n + 1 : Nat) = start - 1 - n by omega] at h

/-! ### The first and the last grid -/

lemma log2_units_lt {rank : Nat} (h : rank < Binary64.rankCount) :
    (Binary64.units rank).log2 < 2098 := by
  have hle : Binary64.units rank ≤ Binary64.units (Binary64.rankCount - 1) :=
    Binary64.units_le_units_iff.2 (Nat.le_sub_one_of_lt h)
  exact Nat.lt_of_le_of_lt (Binary64.log2_mono hle) (by decide +kernel)

/-- The first grid is coarser than twice every magnitude with as many bits, and the last one finer
than a part in `2 ^ 55`.  There are few enough lengths to look at each. -/
lemma coarsest_bounds : ∀ log ∈ List.range 2098,
    let start : Int := ((log : Int) - 1073) * 30103 / 100000 + 2
    Nat.pow 2 (log + 2) * stepDen start ≤ stepNum start ∧
      Nat.pow 2 55 * stepNum (start - 23) ≤ Nat.pow 2 log * stepDen (start - 23) := by
  decide +kernel

lemma noneAbove_coarsest {rank : Nat} (h : rank < Binary64.rankCount) :
    NoneAbove rank (coarsest rank) := by
  obtain ⟨hstart, -⟩ := coarsest_bounds _ (List.mem_range.2 (log2_units_lt h))
  intro c e hc hlt
  obtain ⟨n, rfl⟩ : ∃ n : Nat, e = coarsest rank + n := ⟨(e - coarsest rank).toNat, by omega⟩
  rw [← nearestRank_mul_pow]
  refine Nat.ne_of_gt (Binary64.lt_nearestRank (stepDen_pos _) ?_)
  have hbits : 2 * Binary64.units rank + 1 ≤ Nat.pow 2 ((Binary64.units rank).log2 + 2) := by
    have hlog : Binary64.units rank < Nat.pow 2 ((Binary64.units rank).log2 + 1) :=
      Nat.lt_log2_self
    show _ ≤ Nat.pow 2 ((Binary64.units rank).log2 + 1) * 2
    omega
  have hpos : 0 < c * Nat.pow 10 n := Nat.mul_pos hc (Nat.pow_pos (by decide))
  calc (2 * Binary64.units rank + 1) * stepDen (coarsest rank)
      ≤ Nat.pow 2 ((Binary64.units rank).log2 + 2) * stepDen (coarsest rank) :=
        Nat.mul_le_mul_right _ hbits
    _ ≤ stepNum (coarsest rank) := hstart
    _ ≤ c * Nat.pow 10 n * stepNum (coarsest rank) := Nat.le_mul_of_pos_left _ hpos

lemma onGrid?_finest {rank : Nat} (h : rank < Binary64.rankCount) :
    onGrid? rank (coarsest rank - 23) ≠ none := by
  obtain ⟨-, hlast⟩ := coarsest_bounds _ (List.mem_range.2 (log2_units_lt h))
  refine onGrid?_ne_none ?_
  rcases Nat.eq_zero_or_pos (Binary64.units rank) with hzero | hpos
  · obtain rfl := Binary64.units_eq_zero_iff.1 hzero
    exact Nat.le_zero.1 (nearestRank_below_le 0 _)
  · refine Binary64.nearestRank_eq_of_close (stepDen_pos _) (Nat.div_mul_le_self _ _) ?_
    -- The multiple below is less than a step away.
    have hmod := Nat.mod_lt (Binary64.units rank * stepDen (coarsest rank - 23))
      (stepNum_pos (coarsest rank - 23))
    have hdiv := Nat.div_add_mod' (Binary64.units rank * stepDen (coarsest rank - 23))
      (stepNum (coarsest rank - 23))
    have hbits : Nat.pow 2 (Binary64.units rank).log2 ≤ Binary64.units rank :=
      Nat.log2_self_le (Nat.ne_of_gt hpos)
    calc _ ≤ Nat.pow 2 55 * stepNum (coarsest rank - 23) := Nat.mul_le_mul_left _ (by omega)
      _ ≤ Nat.pow 2 (Binary64.units rank).log2 * stepDen (coarsest rank - 23) := hlast
      _ ≤ Binary64.units rank * stepDen (coarsest rank - 23) := Nat.mul_le_mul_right _ hbits

lemma exists_search? (negative : Bool) {rank : Nat} (h : rank < Binary64.rankCount) :
    ∃ d, search? negative rank 24 (coarsest rank) = some d :=
  Option.ne_none_iff_exists'.1 (search?_ne_none (n := 23) (by decide) (onGrid?_finest h))

/-! ### Digits -/

lemma length_digits_le_of_le {d d' : Decimal} (h : d.coefficient ≤ d'.coefficient) :
    d.digits.length ≤ d'.digits.length := by
  have hpos := Nat.length_toDigits_pos (b := 10) (n := d'.coefficient)
  refine (Nat.length_toDigits_le_iff (by decide) hpos).2 (Nat.lt_of_le_of_lt h ?_)
  exact (Nat.length_toDigits_le_iff (by decide) hpos).1 (Nat.le_refl _)

lemma coefficient_strip_le (d : Decimal) : d.strip.coefficient ≤ d.coefficient := by
  induction d using strip.induct with
  | case1 d hzero =>
    rw [strip, if_pos hzero]
    exact Nat.zero_le _
  | case2 d hne hten ih =>
    rw [strip, if_neg hne, if_pos hten]
    exact Nat.le_trans ih (Nat.div_le_self _ _)
  | case3 d hne hten => exact Nat.le_of_eq (by rw [strip, if_neg hne, if_neg hten])

lemma nearestRank_of_toBinary64 {negative : Bool} {rank : Fin Binary64.rankCount} {d : Decimal}
    (h : d.toBinary64 = .finite negative rank) :
    d.negative = negative ∧ nearestRank d.coefficient d.exponent = rank := by
  rw [toBinary64, Binary64.ofRank] at h
  split at h
  · cases h
    exact ⟨rfl, rfl⟩
  · cases h

/-- A power of ten that lies above a decimal which reads back, on a grid beyond which no decimal
does, is rounded at least as far. -/
lemma le_nearestRank_of_noneAbove {rank c c' : Nat} {e e' : Int} (hnone : NoneAbove rank e')
    (hc : nearestRank c e = rank) (hle : c ≤ c') : rank ≤ nearestRank c' e' := by
  rcases Int.lt_or_le e' e with hlt | hge
  · -- Only zero is left on such a coarse grid.
    obtain rfl : c = 0 := Nat.eq_zero_of_not_pos fun hpos => hnone c e hpos hlt hc
    have hzero : nearestRank 0 e = nearestRank 0 e' :=
      nearestRank_congr (by simp only [Nat.zero_mul])
    rw [← hc, hzero]
    exact nearestRank_mono e' (Nat.zero_le _)
  · obtain ⟨k, rfl⟩ : ∃ k : Nat, e' = e + k := ⟨(e' - e).toNat, by omega⟩
    rw [← nearestRank_mul_pow, ← hc]
    have hpos : 0 < Nat.pow 10 k := Nat.pow_pos (by decide)
    exact nearestRank_mono e (Nat.le_trans hle (Nat.le_mul_of_pos_right _ hpos))

/-- **No decimal with fewer digits reads back.** -/
theorem length_digits_shortest_le {negative : Bool} {rank : Fin Binary64.rankCount} {d : Decimal}
    (h : d.toBinary64 = .finite negative rank) :
    (shortest negative rank).digits.length ≤ d.digits.length := by
  obtain ⟨found, hfound⟩ := exists_search? negative rank.isLt
  have hnone := noneAbove_of_search? (noneAbove_coarsest rank.isLt) hfound
  obtain ⟨-, hback⟩ := nearestRank_of_toBinary64 ((toBinary64_of_search? hfound).trans
    (Binary64.ofRank_val negative rank))
  rw [shortest, hfound, Option.getD_some]
  refine Nat.le_trans (length_digits_le_of_le (coefficient_strip_le found)) ?_
  refine Nat.le_of_not_lt fun hlt => ?_
  have hpos := Nat.length_toDigits_pos (b := 10) (n := d.coefficient)
  obtain ⟨n, hn⟩ : ∃ n, found.digits.length = n + 1 := ⟨found.digits.length - 1, by omega⟩
  have hlength : d.digits.length ≤ n := by omega
  have hn0 : 0 < n := Nat.lt_of_lt_of_le hpos hlength
  -- A power of ten lies between the digits of the two decimals.
  have hbelow : d.coefficient < Nat.pow 10 n :=
    (Nat.length_toDigits_le_iff (by decide) hn0).1 hlength
  have habove : Nat.pow 10 n ≤ found.coefficient := by
    refine Nat.le_of_not_lt fun hlt' => ?_
    have hshort : found.digits.length ≤ n := (Nat.length_toDigits_le_iff (by decide) hn0).2 hlt'
    omega
  -- It reads back, on the grid that was found and so on a coarser one.
  have hten : nearestRank (1 * Nat.pow 10 n) found.exponent = rank := by
    rw [Nat.one_mul]
    refine Nat.le_antisymm (hback ▸ nearestRank_mono _ habove) ?_
    exact le_nearestRank_of_noneAbove hnone (nearestRank_of_toBinary64 h).2 (Nat.le_of_lt hbelow)
  rw [nearestRank_mul_pow] at hten
  exact hnone 1 _ Nat.zero_lt_one (by omega) hten

end MiniLisp.Decimal
