/-
# How numbers are displayed

A number is displayed as its inspected form without an exponent, and without `.0` at the end.
This is the canonical numeral of the shortest decimal that reads back as the number, with the
sign of the number; so it tells the number from every other one.
-/
import MiniLisp.Proofs.Decimal.Notation
import MiniLisp.Proofs.Decimal.Shortest
import MiniLisp.Value.Display
import MiniLisp.Value.Inspect

namespace MiniLisp

open Decimal

namespace Binary64

variable {negative : Bool} {rank : Fin rankCount}

/-- The first bit is the sign. -/
lemma le_toBits_iff : Nat.pow 2 63 ≤ (finite negative rank).toBits ↔ negative = true := by
  have hlt : rank.val < Nat.pow 2 63 := Nat.lt_trans rank.isLt (by decide)
  cases negative with
  | false => simpa [toBits] using hlt
  | true => simp [toBits]

/-! ### Finite numbers -/

lemma negative_shortest : (shortest negative rank).negative = negative :=
  (nearestRank_of_toBinary64 (toBinary64_shortest negative rank)).1

lemma isCanonical_display : ∃ whole fraction,
    IsCanonical negative (finite negative rank).display.toList whole fraction := by
  have hplain := isCanonical_plain (isStripped_shortest negative rank)
  rw [negative_shortest] at hplain
  rw [display, String.toList_ofList]
  exact ⟨_, _, hplain⟩

/-- The display form writes the shortest decimal, perhaps with zeros before the point. -/
lemma exists_ofNumeral?_display : ∃ shown,
    ofNumeral? (finite negative rank).display.toList = some shown ∧
      shown.strip = shortest negative rank := by
  rw [display, String.toList_ofList, ofNumeral?_plain]
  exact ⟨_, rfl, (strip_plain _).trans (isStripped_shortest negative rank).strip_eq⟩

/-- The inspected form writes it too, perhaps with a zero behind the point, and the display form
comes of what it writes. -/
lemma exists_ofNumeral?_inspect : ∃ written,
    ofNumeral? (finite negative rank).inspect.toList = some written ∧
      written.strip = shortest negative rank ∧
        (finite negative rank).display.toList = dropPointZero written.plain := by
  obtain ⟨written, hwritten, hstrip, hplain⟩ :=
    exists_ofNumeral?_inspected (isStripped_shortest negative rank)
  rw [inspect, String.toList_ofList, display, String.toList_ofList]
  exact ⟨written, hwritten, hstrip, hplain.symm⟩

/-! ### All numbers -/

/-- A finite number is read back from its display form, and from the others none is. -/
lemma map_ofRun?_display (x : Binary64) :
    (ofRun? x.display.toList).map toBinary64 =
      match x with
      | .finite negative rank => some (.finite negative rank)
      | _ => none := by
  cases x with
  | nan => rfl
  | infinite negative => cases negative <;> rfl
  | finite negative rank =>
    obtain ⟨spelled, hspelled, hvalue⟩ := exists_spells_plain (shortest negative rank)
    rw [display, String.toList_ofList, ofRun?_eq_some_iff.2 hspelled, Option.map_some, hvalue,
      toBinary64_shortest]

/-- Different numbers are displayed differently. -/
lemma eq_of_display_eq {x y : Binary64} (h : x.display = y.display) : x = y := by
  have hread := congrArg (fun s : String => (ofRun? s.toList).map toBinary64) h
  simp only [map_ofRun?_display] at hread
  cases x <;> cases y <;> simp only [reduceCtorEq, Option.some.injEq] at hread
  case finite.finite => exact hread
  case nan.nan => rfl
  case nan.infinite negative => cases negative <;> exact absurd h (by decide)
  case infinite.nan negative => cases negative <;> exact absurd h (by decide)
  case infinite.infinite m n =>
    revert h
    cases m <;> cases n <;> decide

end Binary64

/-- **Numbers are displayed exactly and in one way only.**  A finite number is displayed as a
canonical numeral, with a minus sign exactly if the sign bit is set.  The decimal that its
inspected form writes, with or without an exponent, reads back as the number, and no decimal with
fewer digits does.  The display form is this decimal written without an exponent and without `.0`
at the end: it writes a decimal of the same digits and the same exact value.  And numbers that are
displayed alike are the same, infinities included. -/
theorem numbers_display_exactly :
    (∀ negative rank, let x : Binary64 := .finite negative rank
      (∃ whole fraction, IsCanonical negative x.display.toList whole fraction) ∧
      (negative = true ↔ Nat.pow 2 63 ≤ x.toBits) ∧
      ∃ written shown, ofNumeral? x.inspect.toList = some written ∧
        written.toBinary64 = x ∧
        (∀ d : Decimal, d.toBinary64 = x → written.strip.digits.length ≤ d.digits.length) ∧
        x.display.toList = dropPointZero written.plain ∧
        ofNumeral? x.display.toList = some shown ∧
        shown.strip = written.strip ∧ shown.value = written.value) ∧
    ∀ x y : Binary64, x.display = y.display → x = y := by
  refine ⟨fun negative rank => ⟨Binary64.isCanonical_display, Binary64.le_toBits_iff.symm, ?_⟩,
    fun x y h => Binary64.eq_of_display_eq h⟩
  obtain ⟨written, hwritten, hstrip, hdisplay⟩ :=
    @Binary64.exists_ofNumeral?_inspect negative rank
  obtain ⟨shown, hshown, hsame⟩ := @Binary64.exists_ofNumeral?_display negative rank
  rw [← hstrip] at hsame
  refine ⟨written, shown, hwritten, ?_, fun d hd => ?_, hdisplay, hshown, hsame, ?_⟩
  · rw [← toBinary64_strip, hstrip, toBinary64_shortest]
  · rw [hstrip]
    exact length_digits_shortest_le hd
  · rw [← value_strip, hsame, value_strip]

end MiniLisp
