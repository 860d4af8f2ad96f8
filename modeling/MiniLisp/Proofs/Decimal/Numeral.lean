/-
# Numerals

Which runs of characters spell a number, and which decimal they spell: an optional sign and
then digits, digits followed by a point and more digits or none, or a point followed by
digits.  `Decimal.ofRun?` reads exactly these.
-/
import MiniLisp.Decimal.Basic
import MiniLisp.Proofs.Text.Span

namespace MiniLisp.Decimal

/-- How the sign of a numeral is written, and whether it is a minus sign. -/
inductive SpellsSign : List Char → Bool → Prop
  | absent : SpellsSign [] false
  | plus : SpellsSign ['+'] false
  | minus : SpellsSign ['-'] true

/-- A run of characters spells a decimal. -/
inductive Spells : List Char → Decimal → Prop
  /-- Digits, a point, and more digits or none. -/
  | point {sign whole fraction : List Char} {negative : Bool} (hsign : SpellsSign sign negative)
    (hne : whole ≠ []) (hwhole : ∀ c ∈ whole, c.isDigit) (hfraction : ∀ c ∈ fraction, c.isDigit) :
    Spells (sign ++ whole ++ '.' :: fraction) (ofDigits negative whole fraction)
  /-- A point and digits. -/
  | leadingPoint {sign fraction : List Char} {negative : Bool} (hsign : SpellsSign sign negative)
    (hne : fraction ≠ []) (hfraction : ∀ c ∈ fraction, c.isDigit) :
    Spells (sign ++ '.' :: fraction) (ofDigits negative [] fraction)
  /-- Digits only. -/
  | whole {sign whole : List Char} {negative : Bool} (hsign : SpellsSign sign negative)
    (hne : whole ≠ []) (hwhole : ∀ c ∈ whole, c.isDigit) :
    Spells (sign ++ whole) (ofDigits negative whole [])

/-! ### The sign -/

lemma splitSign_eq (run : List Char) :
    ∃ sign, SpellsSign sign (splitSign run).1 ∧ run = sign ++ (splitSign run).2 := by
  unfold splitSign
  split
  · exact ⟨_, .minus, rfl⟩
  · exact ⟨_, .plus, rfl⟩
  · exact ⟨_, .absent, rfl⟩

lemma splitSign_append {sign run : List Char} {negative : Bool} (h : SpellsSign sign negative)
    (hplus : run.head? ≠ some '+') (hminus : run.head? ≠ some '-') :
    splitSign (sign ++ run) = (negative, run) := by
  cases h with
  | plus => rfl
  | minus => rfl
  | absent =>
    cases run with
    | nil => rfl
    | cons c run =>
      rw [List.nil_append, splitSign]
      · intro rest heq
        exact hminus (by rw [heq, List.head?_cons])
      · intro rest heq
        exact hplus (by rw [heq, List.head?_cons])

/-! ### The digits -/

/-- A run without a sign: digits with a point or without one, and at least one digit. -/
def SpellsDigits (run whole fraction : List Char) : Prop :=
  (∀ c ∈ whole, c.isDigit) ∧ (∀ c ∈ fraction, c.isDigit) ∧ whole ++ fraction ≠ [] ∧
    (run = whole ++ '.' :: fraction ∨ (run = whole ∧ fraction = []))

lemma ofUnsigned?_eq_some_iff {negative : Bool} {run : List Char} {d : Decimal} :
    ofUnsigned? negative run = some d ↔
      ∃ whole fraction, SpellsDigits run whole fraction ∧
        d = ofDigits negative whole fraction := by
  constructor
  · intro h
    have hrun := (List.takeWhile_append_dropWhile (p := Char.isDigit) (l := run)).symm
    have hwhole := forall_mem_takeWhile (p := Char.isDigit) run
    simp only [ofUnsigned?] at h
    split at h
    · rename_i hrest
      rw [hrest, List.append_nil] at hrun
      split at h
      · cases h
      · rename_i hne
        refine ⟨_, [], ⟨hwhole, by simp, ?_, Or.inr ⟨hrun, rfl⟩⟩, (Option.some.inj h).symm⟩
        simpa using hne
    · rename_i point fraction hrest
      split at h
      · rename_i hall
        obtain ⟨rfl, hfraction, hne⟩ := hall
        refine ⟨_, fraction, ⟨hwhole, by simpa using hfraction, ?_, Or.inl ?_⟩,
          (Option.some.inj h).symm⟩
        · simpa [List.isEmpty_iff] using hne
        · rwa [hrest] at hrun
      · cases h
  · rintro ⟨whole, fraction, ⟨hwhole, hfraction, hne, rfl | ⟨rfl, rfl⟩⟩, rfl⟩
    · have hstop : StopsAt Char.isDigit ('.' :: fraction) := stopsAt_cons.2 rfl
      simp only [ofUnsigned?, takeWhile_append_of_stopsAt hwhole hstop,
        dropWhile_append_of_stopsAt hwhole hstop]
      rw [if_pos ⟨trivial, by simpa using hfraction, by simpa [List.isEmpty_iff] using hne⟩]
    · have htake := takeWhile_append_of_stopsAt hwhole stopsAt_nil
      have hdrop := dropWhile_append_of_stopsAt hwhole stopsAt_nil
      rw [List.append_nil] at htake hdrop
      simp only [ofUnsigned?, htake, hdrop]
      rw [if_neg (by simpa using hne)]

/-! ### Numerals -/

lemma head?_of_spellsDigits {run whole fraction : List Char}
    (h : SpellsDigits run whole fraction) : run.head? ≠ some '+' ∧ run.head? ≠ some '-' := by
  obtain ⟨hwhole, -, hne, h⟩ := h
  cases whole with
  | nil =>
    rcases h with rfl | ⟨rfl, rfl⟩
    · simp
    · exact absurd rfl hne
  | cons c whole =>
    have hhead : run.head? = some c := by
      rcases h with rfl | ⟨rfl, -⟩ <;> rfl
    have hdigit := hwhole c List.mem_cons_self
    rw [hhead]
    constructor <;> rintro ⟨⟩ <;> revert hdigit <;> decide

lemma spells_iff {run : List Char} {d : Decimal} :
    Spells run d ↔ ∃ sign negative digits whole fraction, SpellsSign sign negative ∧
      run = sign ++ digits ∧ SpellsDigits digits whole fraction ∧
        d = ofDigits negative whole fraction := by
  constructor
  · rintro (@⟨sign, whole, fraction, negative, hsign, hne, hwhole, hfraction⟩ |
      @⟨sign, fraction, negative, hsign, hne, hfraction⟩ |
      @⟨sign, whole, negative, hsign, hne, hwhole⟩)
    · exact ⟨sign, negative, _, whole, fraction, hsign, List.append_assoc _ _ _,
        ⟨hwhole, hfraction, by simp [hne], Or.inl rfl⟩, rfl⟩
    · exact ⟨sign, negative, _, [], fraction, hsign, rfl,
        ⟨by simp, hfraction, hne, Or.inl rfl⟩, rfl⟩
    · exact ⟨sign, negative, _, whole, [], hsign, rfl,
        ⟨hwhole, by simp, by simpa using hne, Or.inr ⟨rfl, rfl⟩⟩, rfl⟩
  · rintro ⟨sign, negative, digits, whole, fraction, hsign, rfl,
      ⟨hwhole, hfraction, hne, h⟩, rfl⟩
    rcases h with rfl | ⟨rfl, rfl⟩
    · by_cases hwne : whole = []
      · subst hwne
        exact .leadingPoint hsign hne hfraction
      · rw [← List.append_assoc]
        exact .point hsign hwne hwhole hfraction
    · exact .whole hsign (by simpa using hne) hwhole

lemma Spells.ne_nil {run : List Char} {d : Decimal} (h : Spells run d) : run ≠ [] := by
  cases h <;> simp_all

/-- A run is read as a decimal exactly if it spells it. -/
theorem ofRun?_eq_some_iff {run : List Char} {d : Decimal} :
    ofRun? run = some d ↔ Spells run d := by
  rw [spells_iff, ofRun?, ofUnsigned?_eq_some_iff]
  constructor
  · rintro ⟨whole, fraction, hdigits, rfl⟩
    obtain ⟨sign, hsign, hrun⟩ := splitSign_eq run
    exact ⟨sign, _, _, whole, fraction, hsign, hrun, hdigits, rfl⟩
  · rintro ⟨sign, negative, digits, whole, fraction, hsign, rfl, hdigits, rfl⟩
    obtain ⟨hplus, hminus⟩ := head?_of_spellsDigits hdigits
    rw [splitSign_append hsign hplus hminus]
    exact ⟨whole, fraction, hdigits, rfl⟩

lemma ofRun?_eq_none_iff {run : List Char} : ofRun? run = none ↔ ∀ d, ¬ Spells run d := by
  rw [Option.eq_none_iff_forall_ne_some]
  exact forall_congr' fun d => not_congr ofRun?_eq_some_iff

end MiniLisp.Decimal
