/-
# Arithmetic on many numbers

A native function on many numbers gives what it gives when it is applied to two numbers at a time:
to the outcome for all numbers but the last one, and the last one.  For differences, products and
quotients this is so because they are computed from left to right; a division by a zero fails
beforehand just if it would fail when the zero is reached.  A sum starts from zero every time it is
called, which changes nothing: a sum from zero is never the negative zero, and to all other numbers
zero may be added.
-/
import Mathlib.Data.List.Induction
import MiniLisp.Proofs.Eval.Arguments

namespace MiniLisp

namespace Native

/-- A function applied to an outcome and one more number; an error stays. -/
def applyTo (f : Native) (outcome : Except EvalError Value) (x : Binary64) :
    Except EvalError Value :=
  outcome >>= fun v => f.apply [v, .number x]

/-- A division that looks at its own divisor only. -/
def divide? (x y : Binary64) : Except EvalError Binary64 :=
  if y.isZero then .error .divisionByZero else .ok (x.div y)

/-! ### From left to right -/

lemma difference_append (x : Binary64) {ys : List Binary64} (hne : ys ≠ []) (z : Binary64) :
    difference x (ys ++ [z]) = difference (difference x ys) [z] := by
  obtain ⟨y, ys, rfl⟩ := List.exists_cons_of_ne_nil hne
  rw [List.cons_append, difference, ← List.cons_append, List.foldl_append]
  rfl

lemma product_append (x : Binary64) (ys : List Binary64) (z : Binary64) :
    product x (ys ++ [z]) = product (product x ys) [z] :=
  List.foldl_append

/-- To look for a zero among all divisors is to look at each divisor when it is reached. -/
lemma quotient_eq_foldlM (x : Binary64) (ys : List Binary64) :
    quotient x ys = ys.foldlM divide? x := by
  induction ys generalizing x with
  | nil => rfl
  | cons y ys ih =>
    rw [List.foldlM_cons, divide?]
    by_cases hy : y.isZero
    · rw [if_pos hy, quotient, if_pos (by rw [List.any_cons, hy, Bool.true_or])]
      rfl
    · rw [if_neg hy]
      show _ = ys.foldlM divide? (x.div y)
      rw [← ih, quotient, quotient, List.any_cons, Bool.eq_false_iff.2 hy, Bool.false_or,
        List.foldl_cons]

lemma quotient_append (x : Binary64) (ys : List Binary64) (z : Binary64) :
    quotient x (ys ++ [z]) = quotient x ys >>= fun r => quotient r [z] := by
  simp only [quotient_eq_foldlM, List.foldlM_append]

/-! ### From zero -/

section

variable {α : Type} {op : α → α → α} {bad : α}
  (hbad : ∀ a b, op a b = bad → a = bad ∧ b = bad)

include hbad

/-- A value that comes from two such values only is never reached from another one. -/
lemma foldl_ne_of_ne {start : α} (hstart : start ≠ bad) (l : List α) :
    l.foldl op start ≠ bad := by
  induction l generalizing start with
  | nil => exact hstart
  | cons a l ih => exact ih fun h => hstart (hbad start a h).1

/-- A start that is neutral but for that value is neutral for what is reached from it. -/
lemma start_op_foldl {start : α} (hstart : start ≠ bad)
    (hneutral : ∀ a, a ≠ bad → op start a = a) (l : List α) :
    op start (l.foldl op start) = l.foldl op start :=
  hneutral _ (foldl_ne_of_ne hbad hstart l)

end

lemma zero_add_sum (xs : List Binary64) : Binary64.add (.zero false) (sum xs) = sum xs := by
  have hzero : Binary64.zero false ≠ .zero true := by
    rw [Binary64.zero_eq, Binary64.zero_eq]
    exact nofun
  exact start_op_foldl (fun _ _ => Binary64.eq_of_add_eq_zero) hzero
    (fun _ => Binary64.zero_add) xs

lemma sum_append (xs : List Binary64) (x : Binary64) : sum (xs ++ [x]) = sum [sum xs, x] := by
  calc sum (xs ++ [x]) = Binary64.add (sum xs) x := List.foldl_append
    _ = Binary64.add (Binary64.add (.zero false) (sum xs)) x := by rw [zero_add_sum]
    _ = sum [sum xs, x] := rfl

/-! ### One more number -/

lemma apply_add_append (xs : List Binary64) (x : Binary64) :
    Native.add.apply ((xs ++ [x]).map .number) =
      Native.add.applyTo (Native.add.apply (xs.map .number)) x := by
  rw [(Takes.sum _).apply_eq, (Takes.sum xs).apply_eq, sum_append]
  exact ((Takes.sum [sum xs, x]).apply_eq).symm

variable {f : Native}

/-- Differences, products and quotients of one number more than two or more numbers. -/
lemma apply_append_number (hf : f ∈ [Native.sub, .mul, .div]) (x y : Binary64)
    (ys : List Binary64) (z : Binary64) :
    f.apply ((x :: y :: ys ++ [z]).map .number) =
      f.applyTo (f.apply ((x :: y :: ys).map .number)) z := by
  simp only [List.mem_cons, List.not_mem_nil, or_false] at hf
  rcases hf with rfl | rfl | rfl
  · have happend := difference_append x (List.cons_ne_nil y ys) z
    rw [List.cons_append, (Takes.difference _ _).apply_eq, (Takes.difference _ _).apply_eq,
      happend]
    exact ((Takes.difference (difference x (y :: ys)) [z]).apply_eq).symm
  · have happend := product_append x (y :: ys) z
    rw [List.cons_append, (Takes.product _ _).apply_eq, (Takes.product _ _).apply_eq, happend]
    exact ((Takes.product (product x (y :: ys)) [z]).apply_eq).symm
  · have happend := quotient_append x (y :: ys) z
    rw [List.cons_append, apply_div, apply_div, happend]
    cases hquotient : quotient x (y :: ys) with
    | error e => rfl
    | ok r => exact (apply_div r [z]).symm

/-- All numbers behind the first two, one after another. -/
lemma apply_eq_foldl (hf : f ∈ [Native.sub, .mul, .div]) (x y : Binary64) (zs : List Binary64) :
    f.apply ((x :: y :: zs).map .number) =
      zs.foldl f.applyTo (f.apply [.number x, .number y]) := by
  induction zs using List.reverseRecOn with
  | nil => rfl
  | append_singleton zs z ih =>
    rw [List.foldl_append, ← ih]
    exact apply_append_number hf x y zs z

lemma apply_add_eq_foldl (xs : List Binary64) :
    Native.add.apply (xs.map .number) =
      xs.foldl Native.add.applyTo (.ok (.number (.zero false))) := by
  induction xs using List.reverseRecOn with
  | nil => rfl
  | append_singleton xs x ih => rw [List.foldl_append, ← ih, apply_add_append]; rfl

end Native

/-- **Arithmetic on many numbers is arithmetic on two at a time.**  A difference, product or
quotient of three or more numbers is that of two: of the outcome for all but the last, a number or
the division by zero, and of the last one; so it is computed, or fails, two numbers at a time from
left to right.  In particular a quotient fails beforehand just if it would fail when a zero is
reached.  A sum of one or more numbers is in the same way the sum of two, although every sum
starts from zero, and the sum of no numbers is zero. -/
theorem arithmetic_folds_from_left :
    (∀ f ∈ [Native.sub, .mul, .div], ∀ (xs : List Binary64) (x : Binary64), 2 ≤ xs.length →
      f.apply ((xs ++ [x]).map .number) = f.applyTo (f.apply (xs.map .number)) x) ∧
    (∀ f ∈ [Native.sub, .mul, .div], ∀ (x y : Binary64) (zs : List Binary64),
      f.apply ((x :: y :: zs).map .number) =
        zs.foldl f.applyTo (f.apply [.number x, .number y])) ∧
    (∀ (x : Binary64) (ys : List Binary64),
      Native.div.apply ((x :: ys).map .number) = (ys.foldlM Native.divide? x).map .number) ∧
    Native.add.apply [] = .ok (.number (.zero false)) ∧
    (∀ (xs : List Binary64) (x : Binary64),
      Native.add.apply ((xs ++ [x]).map .number) =
        Native.add.applyTo (Native.add.apply (xs.map .number)) x) ∧
    ∀ xs : List Binary64,
      Native.add.apply (xs.map .number) =
        xs.foldl Native.add.applyTo (.ok (.number (.zero false))) := by
  refine ⟨fun f hf xs z hlength => ?_, fun f hf => Native.apply_eq_foldl hf, fun x ys => ?_, rfl,
    Native.apply_add_append, Native.apply_add_eq_foldl⟩
  · obtain ⟨x, y, ys, rfl⟩ : ∃ x y ys, xs = x :: y :: ys := by
      match xs, hlength with
      | x :: y :: ys, _ => exact ⟨x, y, ys, rfl⟩
    exact Native.apply_append_number hf x y ys z
  · rw [Native.apply_div, Native.quotient_eq_foldlM]

/-- A number alone is negated and not taken from anything, so it begins with two numbers. -/
example : Native.sub.apply [.number (.zero false)] = .ok (.number (.zero true)) := by rfl

end MiniLisp
