/-
# What a cursor passes over

One cursor is further on than another in the same source, by the characters between them.
-/
import MiniLisp.Proofs.Text.Span
import MiniLisp.Reader.Basic

namespace MiniLisp

namespace Cursor

/-- The cursor `c` comes to be `c'` by passing over some characters. -/
def Passes (c : Cursor) (passed : List Char) (c' : Cursor) : Prop :=
  c.rest = passed ++ c'.rest ∧ c'.pos = c.pos + passed.length

namespace Passes

variable {c c₁ c₂ : Cursor} {passed more : List Char}

lemma refl (c : Cursor) : Passes c [] c := ⟨rfl, rfl⟩

lemma trans (h : Passes c passed c₁) (h' : Passes c₁ more c₂) : Passes c (passed ++ more) c₂ := by
  refine ⟨?_, ?_⟩
  · rw [h.1, h'.1, List.append_assoc]
  · rw [h'.2, h.2, List.length_append, Nat.add_assoc]

lemma eq_advance (h : Passes c passed c₁) : c.advance passed.length = c₁ := by
  rw [advance, h.1, ← h.2, List.drop_left]

/-- What is passed over on the way to a place beyond another one. -/
lemma split (passed : List Char) (h : Passes c (passed ++ more) c₂) :
    ∃ mid, Passes c passed mid ∧ Passes mid more c₂ := by
  refine ⟨⟨c.pos + passed.length, more ++ c₂.rest⟩, ⟨?_, rfl⟩, ⟨rfl, ?_⟩⟩
  · rw [h.1, List.append_assoc]
  · rw [h.2, List.length_append, Nat.add_assoc]

end Passes

/-- Passing over the first character and then over the others. -/
lemma Passes.tail {c c' : Cursor} {first : Char} {more : List Char}
    (h : Passes c (first :: more) c') : Passes (c.advance 1) more c' := by
  obtain ⟨mid, hmid, hrest⟩ := Passes.split [first] h
  rwa [← hmid.eq_advance] at hrest

lemma passes_advance {c : Cursor} {passed rest : List Char} (h : c.rest = passed ++ rest) :
    Passes c passed (c.advance passed.length) := by
  refine ⟨?_, rfl⟩
  rw [advance, h, List.drop_left]

lemma peek?_eq_some_iff {c : Cursor} {first : Char} :
    c.peek? = some first ↔ ∃ rest, c.rest = first :: rest := by
  rw [peek?, List.head?_eq_some_iff]

lemma ne_of_peek?_ne {c : Cursor} {first found : Char} {more : List Char}
    (h : c.peek? ≠ some found) (hrest : c.rest = first :: more) : first ≠ found := by
  rintro rfl
  exact h (peek?_eq_some_iff.2 ⟨more, hrest⟩)

lemma Passes.peek?_eq {c c' : Cursor} {first : Char} {more : List Char}
    (h : Passes c (first :: more) c') : c.peek? = some first :=
  peek?_eq_some_iff.2 ⟨_, h.1⟩

/-- A cursor that has a next character passes over it. -/
lemma passes_of_peek? {c : Cursor} {first : Char} (h : c.peek? = some first) :
    Passes c [first] (c.advance 1) := by
  obtain ⟨rest, hrest⟩ := peek?_eq_some_iff.1 h
  exact passes_advance hrest

/-! ### Separators -/

/-- Separators only. -/
def IsGap (gap : List Char) : Prop := ∀ c ∈ gap, Text.isSeparator c

lemma isGap_nil : IsGap [] := fun _ hc => nomatch hc

lemma passes_skipSeparators (c : Cursor) :
    ∃ gap, IsGap gap ∧ Passes c gap c.skipSeparators := by
  refine ⟨c.rest.takeWhile Text.isSeparator, forall_mem_takeWhile c.rest, ?_⟩
  exact passes_advance List.takeWhile_append_dropWhile.symm

lemma stopsAt_skipSeparators (c : Cursor) : StopsAt Text.isSeparator c.skipSeparators.rest := by
  rw [rest_skipSeparators]
  exact stopsAt_dropWhile c.rest

/-- Behind a gap that no separator follows skipping separators stops. -/
lemma Passes.skipSeparators_eq {c c' : Cursor} {gap : List Char} (hgap : IsGap gap)
    (hstop : StopsAt Text.isSeparator c'.rest) (h : Passes c gap c') : c.skipSeparators = c' := by
  rw [Cursor.skipSeparators, countWhile, h.1, takeWhile_append_of_stopsAt hgap hstop, h.eq_advance]

/-- Skipping separators passes over a gap and stops at what comes behind it. -/
lemma Passes.skipSeparators {c c' : Cursor} {gap more : List Char} {first : Char}
    (hgap : IsGap gap) (hfirst : Text.isSeparator first = false)
    (h : Passes c (gap ++ first :: more) c') :
    Passes c gap c.skipSeparators ∧ Passes c.skipSeparators (first :: more) c' := by
  obtain ⟨mid, hmid, hrest⟩ := Passes.split gap h
  have hstop : StopsAt Text.isSeparator mid.rest := by
    rw [hrest.1]
    exact stopsAt_cons.2 hfirst
  rw [hmid.skipSeparators_eq hgap hstop]
  exact ⟨hmid, hrest⟩

end Cursor

end MiniLisp
