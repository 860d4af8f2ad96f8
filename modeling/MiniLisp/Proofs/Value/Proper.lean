/-
# Proper values

A value is proper if nothing foreign is in it: not itself, not in its elements if it is a list
and not in its body if it is a closure.  These are the values that evaluation and display are
meant for.  A display form needs less: bodies of closures are not shown, so only what occurs in a
value counts.
-/
import MiniLisp.Proofs.Value.Occurs
import MiniLisp.Proofs.Value.Relabel

namespace MiniLisp.Value

/-- There is nothing foreign in a value. -/
inductive IsProper : Value → Prop
  | number (x : Binary64) : IsProper (.number x)
  | text (s : String) : IsProper (.text s)
  | symbol (name : String) : IsProper (.symbol name)
  | list {items : List Value} (h : ∀ v ∈ items, IsProper v) : IsProper (.list items)
  | nil : IsProper .nil
  | t : IsProper .t
  | native (f : Native) : IsProper (.native f)
  | closure (stamp : Nat) (parameters : List String) {body : Value} (scope : Scope)
    (h : IsProper body) : IsProper (.closure stamp parameters body scope)

lemma isProper_list {items : List Value} :
    IsProper (.list items) ↔ ∀ v ∈ items, v.IsProper := by
  constructor
  · intro h
    cases h with
    | list hitems => exact hitems
  · exact .list

lemma isProper_closure {stamp : Nat} {parameters : List String} {body : Value} {scope : Scope} :
    IsProper (.closure stamp parameters body scope) ↔ body.IsProper := by
  constructor
  · intro h
    cases h with
    | closure _ _ _ hbody => exact hbody
  · exact .closure stamp parameters scope

/-- A value has a display form unless something foreign occurs in it. -/
lemma isDisplayable_iff {v : Value} : v.isDisplayable ↔ ¬ foreign.Occurs v := by
  induction v using Value.induction with
  | inert v hinert =>
    cases v with
    | foreign => exact iff_of_false Bool.false_ne_true (not_not_intro .refl)
    | symbol | list | closure => cases hinert
    | _ => exact iff_of_true rfl nofun
  | symbol | closure => exact iff_of_true rfl nofun
  | list items ih =>
    rw [isDisplayable, areDisplayable_eq_all, List.all_eq_true, occurs_list_iff]
    simp only [reduceCtorEq, false_or, not_exists, not_and]
    exact forall₂_congr ih

/-- Proper values have a display form. -/
lemma IsProper.isDisplayable {v : Value} (h : v.IsProper) : v.isDisplayable := by
  induction h with
  | list _ ih =>
    rw [Value.isDisplayable, areDisplayable_eq_all, List.all_eq_true]
    exact ih
  | _ => rfl

end MiniLisp.Value
