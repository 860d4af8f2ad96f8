/-
# Double precision numbers

The numbers of the language are the binary64 numbers.  A finite one is a sign and a
*rank*: the place of its magnitude in the increasing list of all finite magnitudes,
which is also what its last sixty-three bits spell.  Every magnitude is a whole number
of units of `2 ^ -1074`, the least one that is not zero, so exact statements about
finite numbers are statements about whole numbers.
-/

namespace MiniLisp

/-- The number of finite magnitudes. -/
abbrev Binary64.rankCount : Nat := 2047 * Nat.pow 2 52

/-- A double precision number.  All payloads of a number that is not a number are one. -/
inductive Binary64 where
  /-- Not a number. -/
  | nan
  /-- A finite number: its sign and the place of its magnitude. -/
  | finite (negative : Bool) (rank : Fin Binary64.rankCount)
  /-- An infinity. -/
  | infinite (negative : Bool)
deriving DecidableEq, Repr

namespace Binary64

/-- Magnitudes are counted in units of two to the power of minus this number. -/
@[irreducible] def unitExponent : Nat := 1074

/-- The magnitude at a place, in units of `2 ^ -1074`.  The first `2 ^ 52` places are
evenly spaced; after that the spacing doubles every `2 ^ 52` places.  The formula also
makes sense at `rankCount`, where it gives the bound that finite magnitudes stay below. -/
def units (rank : Nat) : Nat :=
  if rank < Nat.pow 2 52 then rank
  else (Nat.pow 2 52 + rank % Nat.pow 2 52) * Nat.pow 2 (rank / Nat.pow 2 52 - 1)

/-- The number of a sign and a place; from `rankCount` on it is infinite. -/
def ofRank (negative : Bool) (rank : Nat) : Binary64 :=
  if h : rank < rankCount then .finite negative ⟨rank, h⟩ else .infinite negative

/-- Zero, with a sign. -/
def zero (negative : Bool) : Binary64 := ofRank negative 0

/-- The exact value of a finite number in units of `2 ^ -1074`. -/
def signedUnits (negative : Bool) (rank : Nat) : Int :=
  if negative then -(units rank : Int) else units rank

/-! ### Bits -/

/-- The sixty-four bits of a number, as a whole number. -/
def toBits : Binary64 → Nat
  | .nan => rankCount + Nat.pow 2 51
  | .finite negative rank => negative.toNat * Nat.pow 2 63 + rank
  | .infinite negative => negative.toNat * Nat.pow 2 63 + rankCount

/-- The number with the given bits. -/
def ofBits (bits : Nat) : Binary64 :=
  let rank := bits % Nat.pow 2 63
  if rank ≤ rankCount then ofRank (bits / Nat.pow 2 63 % 2 == 1) rank else .nan

theorem ofRank_of_lt {rank : Nat} (negative : Bool) (h : rank < rankCount) :
    ofRank negative rank = .finite negative ⟨rank, h⟩ := by
  simp only [ofRank, h, dif_pos]

theorem ofRank_val (negative : Bool) (rank : Fin rankCount) :
    ofRank negative rank = .finite negative rank := by
  simp only [ofRank, rank.isLt, dif_pos]

theorem ofRank_rankCount (negative : Bool) : ofRank negative rankCount = .infinite negative := by
  simp only [ofRank, Nat.lt_irrefl, dif_neg, not_false_eq_true]

theorem ofBits_add (negative : Bool) {rank : Nat} (h : rank ≤ rankCount) :
    ofBits (negative.toNat * Nat.pow 2 63 + rank) = ofRank negative rank := by
  have hlt : rank < Nat.pow 2 63 := Nat.lt_of_le_of_lt h (by decide)
  have hmod : (negative.toNat * Nat.pow 2 63 + rank) % Nat.pow 2 63 = rank := by
    rw [Nat.mul_add_mod_self_right, Nat.mod_eq_of_lt hlt]
  have hdiv : ((negative.toNat * Nat.pow 2 63 + rank) / Nat.pow 2 63 % 2 == 1) = negative := by
    rw [Nat.mul_comm, Nat.mul_add_div (by decide), Nat.div_eq_of_lt hlt, Nat.add_zero]
    cases negative <;> rfl
  unfold ofBits
  rw [hmod, hdiv]
  exact if_pos h

/-- The bits of a number give it back. -/
theorem ofBits_toBits (x : Binary64) : ofBits x.toBits = x := by
  cases x with
  | nan => rfl
  | finite negative rank =>
    exact (ofBits_add negative (Nat.le_of_lt rank.isLt)).trans (ofRank_val negative rank)
  | infinite negative =>
    exact (ofBits_add negative (Nat.le_refl _)).trans (ofRank_rankCount negative)

end Binary64

end MiniLisp
