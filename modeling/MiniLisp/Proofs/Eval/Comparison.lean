/-
# Comparisons of many numbers

A comparison looks at neighbours only, and since the order of the exact values is transitive this
decides the order of all numbers that it is given.  So it holds of two numbers or more exactly if
all of them have exact values and each stands in the relation to all behind it, and of a number
alone whatever it is, also if it is not a number.
-/
import Mathlib.Data.List.Chain
import MiniLisp.Proofs.Binary64.Order
import MiniLisp.Proofs.Eval.Arguments

namespace MiniLisp

open Binary64

/-- All numbers have exact values, and each stands in a relation to all behind it. -/
def AreOrdered (related : Extended → Extended → Prop) (xs : List Binary64) : Prop :=
  .nan ∉ xs ∧ xs.Pairwise (Compare related)

variable {related : Extended → Extended → Prop} {xs ys : List Binary64}

/-- To have less numbers does not disturb the order of those that are left. -/
lemma length_eq_one_or_areOrdered_of_sublist (hsub : ys.Sublist xs) (hne : ys ≠ [])
    (h : xs.length = 1 ∨ AreOrdered related xs) : ys.length = 1 ∨ AreOrdered related ys := by
  rcases h with hlength | ⟨hnan, hpairs⟩
  · exact Or.inl (le_antisymm (hlength ▸ hsub.length_le) (List.length_pos_of_ne_nil hne))
  · exact Or.inr ⟨fun hmem => hnan (hsub.subset hmem), hpairs.sublist hsub⟩

namespace Native

/-! ### Neighbours and pairs -/

section

variable {test : Binary64 → Binary64 → Bool}

/-- A chain of neighbours. -/
lemma isChain_iff (htest : ∀ {x y}, test x y ↔ Compare related x y) (x : Binary64)
    (xs : List Binary64) : isChain test x xs ↔ (x :: xs).IsChain (Compare related) := by
  induction xs generalizing x with
  | nil => exact iff_of_true rfl (.singleton x)
  | cons y xs ih => rw [isChain, Bool.and_eq_true, htest, ih, List.isChain_cons_cons]

/-- If a relation is transitive, a chain of neighbours relates all numbers. -/
lemma isChain_iff_areOrdered [IsTrans Extended related]
    (htest : ∀ {x y}, test x y ↔ Compare related x y) (x : Binary64) (xs : List Binary64) :
    isChain test x xs ↔ (x :: xs).length = 1 ∨ AreOrdered related (x :: xs) := by
  rw [isChain_iff htest, List.isChain_iff_pairwise]
  cases xs with
  | nil => exact iff_of_true (List.pairwise_singleton _ x) (Or.inl rfl)
  | cons y xs =>
    refine ⟨fun h => Or.inr ⟨fun hnan => ?_, h⟩, ?_⟩
    · -- A first number stands in the relation to all others, and these stand behind it.
      have hfirst := (List.pairwise_cons.1 h).1
      rcases List.mem_cons.1 hnan with hx | hbehind
      · exact (hfirst y List.mem_cons_self).ne_nan.1 hx.symm
      · exact (hfirst _ hbehind).ne_nan.2 rfl
    · rintro (hlength | h)
      · cases hlength
      · exact h.2

end

/-! ### Verdicts -/

lemma ofBool_eq_t_iff {flag : Bool} : Value.ofBool flag = .t ↔ flag := by
  cases flag
  · exact iff_of_false nofun Bool.false_ne_true
  · exact iff_of_true rfl rfl

lemma apply_lt_eq_t_iff (hne : xs ≠ []) :
    Native.lt.apply (xs.map .number) = .ok .t ↔ xs.length = 1 ∨ AreOrdered (· < ·) xs := by
  obtain ⟨x, xs, rfl⟩ := List.exists_cons_of_ne_nil hne
  rw [(Takes.less x xs).apply_eq, Except.ok.injEq, ofBool_eq_t_iff]
  exact isChain_iff_areOrdered Binary64.lt_iff x xs

lemma apply_le_eq_t_iff (hne : xs ≠ []) :
    Native.le.apply (xs.map .number) = .ok .t ↔ xs.length = 1 ∨ AreOrdered (· ≤ ·) xs := by
  obtain ⟨x, xs, rfl⟩ := List.exists_cons_of_ne_nil hne
  rw [(Takes.lessOrEqual x xs).apply_eq, Except.ok.injEq, ofBool_eq_t_iff]
  exact isChain_iff_areOrdered Binary64.le_iff x xs

variable {f : Native}

/-- There is no other verdict than true and false. -/
lemma apply_eq_t_or_nil (hf : f ∈ [Native.lt, .le]) (hne : xs ≠ []) :
    f.apply (xs.map .number) = .ok .t ∨ f.apply (xs.map .number) = .ok .nil := by
  obtain ⟨x, xs, rfl⟩ := List.exists_cons_of_ne_nil hne
  have hverdict : ∃ v, f.apply ((x :: xs).map .number) = .ok v ∧ f.Returns v := by
    simp only [List.mem_cons, List.not_mem_nil, or_false] at hf
    rcases hf with rfl | rfl
    · exact ⟨_, (Takes.less x xs).apply_eq, (Takes.less x xs).returns⟩
    · exact ⟨_, (Takes.lessOrEqual x xs).apply_eq, (Takes.lessOrEqual x xs).returns⟩
  obtain ⟨v, happly, hreturns⟩ := hverdict
  simp only [List.mem_cons, List.not_mem_nil, or_false] at hf
  rw [happly]
  rcases hf with rfl | rfl <;> exact hreturns.imp (congrArg _) (congrArg _)

lemma apply_eq_t_of_sublist (hf : f ∈ [Native.lt, .le]) (hsub : ys.Sublist xs) (hne : ys ≠ [])
    (h : f.apply (xs.map .number) = .ok .t) : f.apply (ys.map .number) = .ok .t := by
  have hxs : xs ≠ [] := by
    rintro rfl
    exact hne (List.sublist_nil.1 hsub)
  simp only [List.mem_cons, List.not_mem_nil, or_false] at hf
  rcases hf with rfl | rfl
  · exact (apply_lt_eq_t_iff hne).2
      (length_eq_one_or_areOrdered_of_sublist hsub hne ((apply_lt_eq_t_iff hxs).1 h))
  · exact (apply_le_eq_t_iff hne).2
      (length_eq_one_or_areOrdered_of_sublist hsub hne ((apply_le_eq_t_iff hxs).1 h))

end Native

/-- What is in a strict order is in the order that is not strict, and all of it is different. -/
lemma AreOrdered.of_lt (h : AreOrdered (· < ·) xs) :
    AreOrdered (· ≤ ·) xs ∧ xs.Pairwise fun x y => x.value? ≠ y.value? := by
  refine ⟨⟨h.1, h.2.imp ?_⟩, h.2.imp ?_⟩
  · rintro x y ⟨a, b, hx, hy, hab⟩
    exact ⟨a, b, hx, hy, hab.le⟩
  · rintro x y ⟨a, b, hx, hy, hab⟩ hxy
    exact hab.ne (Option.some.inj (hx.symm.trans (hxy.trans hy)))

/-! ### The order of many numbers -/

/--
**A comparison of numbers holds exactly if there is one number only, or all have exact values and
each stands in the relation to all behind it; otherwise it gives `Nil`.**  Finite values are
between those of the infinities, and the two zeros have the same.  So what is in the strict order
is also in the other one and all different, and an order stays one when numbers are taken away.
-/
theorem comparisons_decide_order (hxs : xs ≠ []) :
    (Native.lt.apply (xs.map .number) = .ok .t ↔ xs.length = 1 ∨ AreOrdered (· < ·) xs) ∧
    (Native.le.apply (xs.map .number) = .ok .t ↔ xs.length = 1 ∨ AreOrdered (· ≤ ·) xs) ∧
    (∀ f ∈ [Native.lt, .le], f.apply (xs.map .number) ≠ .ok .t →
      f.apply (xs.map .number) = .ok .nil) ∧
    (∀ negative rank, Compare (· < ·) (.infinite true) (.finite negative rank) ∧
      Compare (· < ·) (.finite negative rank) (.infinite false)) ∧
    (zero true).value? = (zero false).value? ∧
    (Native.lt.apply (xs.map .number) = .ok .t → Native.le.apply (xs.map .number) = .ok .t ∧
      xs.Pairwise fun x y => x.value? ≠ y.value?) ∧
    ∀ f ∈ [Native.lt, .le], ∀ ys, ys.Sublist xs → ys ≠ [] →
      f.apply (xs.map .number) = .ok .t → f.apply (ys.map .number) = .ok .t := by
  refine ⟨Native.apply_lt_eq_t_iff hxs, Native.apply_le_eq_t_iff hxs,
    fun f hf => (Native.apply_eq_t_or_nil hf hxs).resolve_left, fun negative rank => ?_, ?_, ?_,
    fun f hf ys hsub hne => Native.apply_eq_t_of_sublist hf hsub hne⟩
  · exact ⟨(Compare.related_iff rfl rfl).2 (WithBot.bot_lt_coe _),
      (Compare.related_iff rfl rfl).2 (WithBot.coe_lt_coe.2 (WithTop.coe_lt_top _))⟩
  · rw [zero_eq, zero_eq, value?, value?, value, value, signedUnits_eq_zero_iff.2 rfl,
      signedUnits_eq_zero_iff.2 rfl]
  · intro hlt
    rw [Native.apply_le_eq_t_iff hxs]
    rcases (Native.apply_lt_eq_t_iff hxs).1 hlt with hlength | hordered
    · obtain ⟨x, rfl⟩ := List.length_eq_one_iff.1 hlength
      exact ⟨Or.inl hlength, List.pairwise_singleton _ x⟩
    · exact ⟨Or.inr hordered.of_lt.1, hordered.of_lt.2⟩

/-- The zeros are between the infinities, and neither is below the other. -/
theorem comparisons_decide_order_zeros :
    [Binary64.infinite true, .zero false, .zero true, .infinite false] ≠ [] ∧
    AreOrdered (· ≤ ·) [Binary64.infinite true, .zero false, .zero true, .infinite false] ∧
    ¬ AreOrdered (· < ·) [Binary64.infinite true, .zero false, .zero true, .infinite false] := by
  have hne : [Binary64.infinite true, .zero false, .zero true, .infinite false] ≠ [] :=
    List.cons_ne_nil _ _
  obtain ⟨hlt, hle, -⟩ := comparisons_decide_order hne
  refine ⟨hne, (hle.1 ?_).resolve_left (by decide), fun hordered => ?_⟩
  · refine (Native.Takes.lessOrEqual _ _).apply_eq.trans ?_
    rw [show Native.isChain Binary64.le _ _ = true by decide +kernel]
    rfl
  · have hverdict := (Native.Takes.less _ _).apply_eq.symm.trans (hlt.2 (Or.inr hordered))
    exact absurd (Native.ofBool_eq_t_iff.1 (Except.ok.inj hverdict)) (by decide +kernel)

end MiniLisp
