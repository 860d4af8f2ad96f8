/-
# The first of each class

A value is dropped from a list if it equals one of those kept so far.  As equality is transitive,
this is so exactly if it equals any before it (`distinct_concat`): what is kept is the first of
each class of equal values, in order.
-/
import Mathlib.Data.List.Induction
import MiniLisp.Proofs.Value.Equality

namespace MiniLisp.Value

variable {u v : Value} {seen us vs : List Value}

/-- What follows some values is compared with those of them that were kept. -/
lemma distinctFrom_append :
    distinctFrom seen (us ++ vs) =
      distinctFrom seen us ++ distinctFrom ((distinctFrom seen us).reverse ++ seen) vs := by
  induction us generalizing seen with
  | nil => rfl
  | cons u us ih =>
    rw [List.cons_append, distinctFrom, distinctFrom]
    split
    · exact ih
    · rw [ih, List.cons_append, List.reverse_cons, List.append_assoc, List.singleton_append]

/-- Of each value that is dropped an equal one stays. -/
lemma exists_same_distinctFrom_iff (seen vs : List Value) (v : Value) :
    (∃ w ∈ distinctFrom seen vs ++ seen, same w v) ↔ ∃ w ∈ vs ++ seen, same w v := by
  induction vs generalizing seen with
  | nil => rfl
  | cons u vs ih =>
    rw [distinctFrom]
    split
    · rename_i hseen
      rw [ih]
      refine ⟨fun ⟨w, hw, hsame⟩ => ⟨w, List.mem_cons_of_mem _ hw, hsame⟩, ?_⟩
      rintro ⟨w, hw, hsame⟩
      rcases List.mem_cons.1 hw with rfl | hw
      · -- What equals the value that is dropped equals one that was seen.
        obtain ⟨s, hs, hold⟩ := List.any_eq_true.1 hseen
        exact ⟨s, List.mem_append_right _ hs, same_trans hold hsame⟩
      · exact ⟨w, hw, hsame⟩
    · have hmove : ∀ l : List Value,
          (∃ w ∈ u :: l ++ seen, same w v) ↔ ∃ w ∈ l ++ u :: seen, same w v := fun l => by
        simp only [List.perm_middle.mem_iff, List.cons_append]
      rw [hmove, hmove, ih]

/-- One more value is kept exactly if none before it equals it. -/
lemma distinct_concat (vs : List Value) (v : Value) :
    distinct (vs ++ [v]) = distinct vs ++ if vs.any (same · v) then [] else [v] := by
  have hany : (distinctFrom [] vs).any (same · v) = vs.any (same · v) := by
    have hiff := exists_same_distinctFrom_iff [] vs v
    rw [List.append_nil, List.append_nil] at hiff
    rwa [Bool.eq_iff_iff, List.any_eq_true, List.any_eq_true]
  rw [distinct, distinctFrom_append, distinctFrom, distinctFrom, List.append_nil, List.any_reverse,
    hany]
  rfl

example :
    distinct [.list [.number (.zero true), .nil], .list [.number (.zero true), .list []],
      .list [.number (.zero false), .nil], .text "a", .symbol "a", .text "a"] =
      [.list [.number (.zero true), .nil], .list [.number (.zero true), .list []],
        .text "a", .symbol "a"] := rfl

lemma distinct_sublist (vs : List Value) : (distinct vs).Sublist vs := by
  induction vs using List.reverseRecOn with
  | nil => exact .slnil
  | append_singleton vs v ih =>
    rw [distinct_concat]
    refine ih.append ?_
    split
    · exact List.nil_sublist _
    · exact .refl _

/-- No two values that are kept are equal. -/
lemma pairwise_distinct (vs : List Value) :
    (distinct vs).Pairwise fun u v => ¬ same u v := by
  induction vs using List.reverseRecOn with
  | nil => exact .nil
  | append_singleton vs v ih =>
    rw [distinct_concat]
    split
    · rwa [List.append_nil]
    · rename_i hnew
      rw [List.any_eq_true, not_exists] at hnew
      refine List.pairwise_append.2 ⟨ih, List.pairwise_singleton _ v, fun u hu w hw => ?_⟩
      rw [List.mem_singleton.1 hw]
      exact fun hsame => hnew u ⟨(distinct_sublist vs).subset hu, hsame⟩

/-- Nothing is dropped where no two values are equal. -/
lemma distinct_eq_self (h : vs.Pairwise fun u v => ¬ same u v) : distinct vs = vs := by
  induction vs using List.reverseRecOn with
  | nil => rfl
  | append_singleton vs v ih =>
    obtain ⟨hvs, -, hlast⟩ := List.pairwise_append.1 h
    have hnew : ¬ vs.any (same · v) := by
      rw [List.any_eq_true]
      rintro ⟨u, hu, hsame⟩
      exact hlast u hu v List.mem_cons_self hsame
    rw [distinct_concat, ih hvs, if_neg hnew]

/-- The value that is kept of a class is the first of it. -/
lemma find?_distinct (vs : List Value) (v : Value) :
    (distinct vs).find? (same · v) = vs.find? (same · v) := by
  induction vs using List.reverseRecOn with
  | nil => rfl
  | append_singleton vs w ih =>
    rw [distinct_concat, List.find?_append, List.find?_append, ih]
    split
    · rename_i hold
      by_cases hw : same w v
      · -- One before the value that is dropped is in its class.
        obtain ⟨u, hu, hsame⟩ := List.any_eq_true.1 hold
        have hfound : (vs.find? (same · v)).isSome :=
          List.find?_isSome.2 ⟨u, hu, same_trans hsame hw⟩
        rw [Option.or_of_isSome hfound, Option.or_of_isSome hfound]
      · simp [hw]
    · rfl

end MiniLisp.Value
