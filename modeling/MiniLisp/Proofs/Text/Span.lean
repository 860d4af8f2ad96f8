/-
# Spans

A list whose elements have a property up to some place, and not at that place, is cut there
by `takeWhile` and `dropWhile`.
-/
import Mathlib.Tactic.Lemma

namespace MiniLisp

variable {α : Type} {p : α → Bool}

/-- A list that does not begin with an element that has the property. -/
def StopsAt (p : α → Bool) (rest : List α) : Prop := ∀ a ∈ rest.head?, p a = false

@[simp] lemma stopsAt_nil : StopsAt p [] := fun _ h => nomatch h

@[simp] lemma stopsAt_cons {a : α} {rest : List α} : StopsAt p (a :: rest) ↔ p a = false := by
  simp [StopsAt]

lemma stopsAt_dropWhile (l : List α) : StopsAt p (l.dropWhile p) := by
  intro a ha
  have h := List.head?_dropWhile_not p l
  rw [Option.mem_def.1 ha] at h
  simpa using h

lemma takeWhile_eq_nil_of_stopsAt {rest : List α} (h : StopsAt p rest) :
    rest.takeWhile p = [] := by
  cases rest with
  | nil => rfl
  | cons a rest => rw [List.takeWhile_cons_of_neg (by simpa using stopsAt_cons.1 h)]

lemma takeWhile_append_of_stopsAt {span rest : List α} (hspan : ∀ a ∈ span, p a)
    (hrest : StopsAt p rest) : (span ++ rest).takeWhile p = span := by
  rw [List.takeWhile_append_of_pos hspan, takeWhile_eq_nil_of_stopsAt hrest, List.append_nil]

lemma dropWhile_append_of_stopsAt {span rest : List α} (hspan : ∀ a ∈ span, p a)
    (hrest : StopsAt p rest) : (span ++ rest).dropWhile p = rest := by
  have h := List.takeWhile_append_dropWhile (p := p) (l := span ++ rest)
  rw [takeWhile_append_of_stopsAt hspan hrest] at h
  exact List.append_cancel_left h

lemma forall_mem_takeWhile (l : List α) : ∀ a ∈ l.takeWhile p, p a :=
  List.all_eq_true.1 List.all_takeWhile

end MiniLisp
