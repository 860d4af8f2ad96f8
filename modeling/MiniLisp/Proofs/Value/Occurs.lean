/-
# Values within values

A value occurs in another one if it is that value or an element, at any depth of lists.  The
body and the scope of a closure are not within it.
-/
import Mathlib.Tactic.Lemma
import MiniLisp.Value.Basic

namespace MiniLisp.Value

/-- The value `v` occurs in the other one. -/
inductive Occurs (v : Value) : Value → Prop
  | refl : Occurs v v
  | item {items : List Value} {w : Value} (hmem : w ∈ items) (h : Occurs v w) :
    Occurs v (.list items)

lemma Occurs.trans {u v w : Value} (h : u.Occurs v) (h' : v.Occurs w) : u.Occurs w := by
  induction h' with
  | refl => exact h
  | item hmem _ ih => exact .item hmem ih

lemma occurs_iff {v w : Value} :
    v.Occurs w ↔ v = w ∨ ∃ items, w = .list items ∧ ∃ u ∈ items, v.Occurs u := by
  constructor
  · rintro (_ | ⟨hmem, h⟩)
    · exact Or.inl rfl
    · exact Or.inr ⟨_, rfl, _, hmem, h⟩
  · rintro (rfl | ⟨items, rfl, u, hmem, h⟩)
    · exact .refl
    · exact .item hmem h

lemma occurs_list_iff {v : Value} {items : List Value} :
    v.Occurs (.list items) ↔ v = .list items ∨ ∃ w ∈ items, v.Occurs w := by
  rw [occurs_iff]
  simp

end MiniLisp.Value
