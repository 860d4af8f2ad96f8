/-
# What native functions do with their arguments

A native function checks its arguments before it computes: how many there are, then from left to
right whether they are numbers, and a division at last whether it is to divide by a zero.  The
first check that fails is the error.  Arguments are refused or taken, and a function that takes
its arguments gives a value.
-/
import MiniLisp.Eval.Native
import MiniLisp.Proofs.Binary64.Sum
import MiniLisp.Proofs.Value.Proper

namespace MiniLisp

/-- The error with a value that can be shown. -/
lemma EvalError.about_of_not_occurs (cause : Value → EvalError) {v : Value}
    (h : ¬ Value.foreign.Occurs v) : about cause v = cause v :=
  if_pos (Value.isDisplayable_iff.2 h)

/-- The error with a value that cannot be shown. -/
lemma EvalError.about_of_occurs (cause : Value → EvalError) {v : Value}
    (h : Value.foreign.Occurs v) : about cause v = .undisplayable :=
  if_neg fun hv => Value.isDisplayable_iff.1 hv h

namespace Native

/-! ### Refusing and taking -/

/-- Whether a function refuses the number of its arguments: a sum may have none, the test for
numbers has just one, and any other function has one at least. -/
def Miscounts : Native → List Value → Prop
  | .add, _ => False
  | .numberp, arguments => arguments.length ≠ 1
  | _, arguments => arguments = []

/-- What a function says against its arguments, by the first check that they do not stand. -/
inductive Refuses : Native → List Value → EvalError → Prop
  /-- There are too few or too many. -/
  | count {f : Native} {arguments : List Value} (hcount : f.Miscounts arguments) :
    Refuses f arguments (.nativeArity f)
  /-- Numbers should be given, and behind some numbers something else is.  It can be shown. -/
  | argument {f : Native} {numbers : List Binary64} {v : Value} {rest : List Value}
    (hf : f ≠ .numberp) (hv : ∀ x, v ≠ .number x) (hshown : ¬ Value.foreign.Occurs v) :
    Refuses f (numbers.map .number ++ v :: rest) (.notNumber v)
  /-- Numbers should be given, and behind some numbers something is that cannot be shown. -/
  | unshown {f : Native} {numbers : List Binary64} {v : Value} {rest : List Value}
    (hf : f ≠ .numberp) (hunshown : Value.foreign.Occurs v) :
    Refuses f (numbers.map .number ++ v :: rest) .undisplayable
  /-- All are numbers, but the first one should be divided by a zero. -/
  | divisor {x : Binary64} {ys : List Binary64} {negative : Bool} (hzero : .zero negative ∈ ys) :
    Refuses .div ((x :: ys).map .number) .divisionByZero

/-- The arguments that a function takes, and what it makes of them. -/
inductive Takes : Native → List Value → Value → Prop
  | sum (xs : List Binary64) : Takes .add (xs.map .number) (.number (Native.sum xs))
  | difference (x : Binary64) (xs : List Binary64) :
    Takes .sub ((x :: xs).map .number) (.number (Native.difference x xs))
  | product (x : Binary64) (xs : List Binary64) :
    Takes .mul ((x :: xs).map .number) (.number (Native.product x xs))
  | quotient (x : Binary64) {ys : List Binary64} (hzero : ∀ negative, .zero negative ∉ ys) :
    Takes .div ((x :: ys).map .number) (.number (ys.foldl Binary64.div x))
  | less (x : Binary64) (xs : List Binary64) :
    Takes .lt ((x :: xs).map .number) (.ofBool (isChain Binary64.lt x xs))
  | lessOrEqual (x : Binary64) (xs : List Binary64) :
    Takes .le ((x :: xs).map .number) (.ofBool (isChain Binary64.le x xs))
  | test (v : Value) : Takes .numberp [v] (.ofBool v.number?.isSome)

/-- The values that a function can give: numbers, or truth values. -/
def Returns : Native → Value → Prop
  | .add, v | .sub, v | .mul, v | .div, v => ∃ x, v = .number x
  | .lt, v | .le, v | .numberp, v => v = .t ∨ v = .nil

variable {f : Native} {arguments : List Value} {e : EvalError} {v : Value}

/-! ### Numbers -/

lemma numbersOf_map (xs : List Binary64) : numbersOf (xs.map .number) = .ok xs := by
  induction xs with
  | nil => rfl
  | cons x xs ih =>
    rw [List.map_cons, numbersOf, ih]
    rfl

lemma numberOf_eq_error (hv : ∀ x, v ≠ .number x) : numberOf v = .error (.about .notNumber v) := by
  cases v with
  | number x => exact absurd rfl (hv x)
  | _ => rfl

/-- What stands behind the first argument that is not a number does not matter. -/
lemma numbersOf_append (numbers : List Binary64) (rest : List Value) (hv : ∀ x, v ≠ .number x) :
    numbersOf (numbers.map .number ++ v :: rest) = .error (.about .notNumber v) := by
  induction numbers with
  | nil =>
    rw [List.map_nil, List.nil_append, numbersOf, numberOf_eq_error hv]
    rfl
  | cons x numbers ih =>
    rw [List.map_cons, List.cons_append, numbersOf, ih]
    rfl

lemma operandsOf_map (f : Native) (x : Binary64) (xs : List Binary64) :
    operandsOf f ((x :: xs).map .number) = .ok (x, xs) := by
  rw [List.map_cons, operandsOf, numbersOf_map]
  rfl

lemma operandsOf_append (f : Native) (numbers : List Binary64) (rest : List Value)
    (hv : ∀ x, v ≠ .number x) :
    operandsOf f (numbers.map .number ++ v :: rest) = .error (.about .notNumber v) := by
  cases numbers with
  | nil =>
    rw [List.map_nil, List.nil_append, operandsOf, numberOf_eq_error hv]
    rfl
  | cons x numbers =>
    rw [List.map_cons, List.cons_append, operandsOf, numbersOf_append numbers rest hv]
    rfl

/-- Arguments are all numbers, or there is a leftmost one that is not. -/
lemma exists_numbers (arguments : List Value) :
    (∃ xs : List Binary64, arguments = xs.map .number) ∨
      ∃ (numbers : List Binary64) (v : Value) (rest : List Value),
        arguments = numbers.map .number ++ v :: rest ∧ ∀ x, v ≠ .number x := by
  induction arguments with
  | nil => exact Or.inl ⟨[], rfl⟩
  | cons w arguments ih =>
    by_cases hw : ∃ x, w = .number x
    · obtain ⟨x, rfl⟩ := hw
      rcases ih with ⟨xs, rfl⟩ | ⟨numbers, v, rest, rfl, hv⟩
      · exact Or.inl ⟨x :: xs, rfl⟩
      · exact Or.inr ⟨x :: numbers, v, rest, rfl, hv⟩
    · exact Or.inr ⟨[], w, arguments, rfl, not_exists.1 hw⟩

/-! ### Applying -/

/-- A function that needs numbers names the leftmost argument that is not one. -/
lemma apply_append (hf : f ≠ .numberp) (numbers : List Binary64) (rest : List Value)
    (hv : ∀ x, v ≠ .number x) :
    f.apply (numbers.map .number ++ v :: rest) = .error (.about .notNumber v) := by
  cases f with
  | numberp => exact absurd rfl hf
  | add =>
    rw [Native.apply, numbersOf_append numbers rest hv]
    rfl
  | sub | mul | div | lt | le =>
    rw [Native.apply, operandsOf_append _ numbers rest hv]
    rfl

lemma any_isZero_iff {ys : List Binary64} :
    ys.any Binary64.isZero ↔ ∃ negative, .zero negative ∈ ys := by
  simp only [List.any_eq_true, Binary64.isZero_iff]
  exact ⟨fun ⟨_, hmem, negative, heq⟩ => ⟨negative, heq ▸ hmem⟩,
    fun ⟨negative, hmem⟩ => ⟨_, hmem, negative, rfl⟩⟩

lemma apply_div (x : Binary64) (ys : List Binary64) :
    Native.div.apply ((x :: ys).map .number) = (quotient x ys).map .number := by
  rw [Native.apply, operandsOf_map]
  cases hquotient : quotient x ys <;> simp only [bind, Except.bind, hquotient] <;> rfl

/-- What is refused is the error. -/
lemma Refuses.apply_eq (h : f.Refuses arguments e) : f.apply arguments = .error e := by
  cases h with
  | count hcount =>
    cases f with
    | add => cases hcount
    | numberp =>
      rcases arguments with _ | ⟨v, _ | ⟨w, rest⟩⟩
      · rfl
      · exact absurd rfl hcount
      · rfl
    | sub | mul | div | lt | le =>
      obtain rfl : arguments = [] := hcount
      rfl
  | argument hf hv hshown =>
    rw [apply_append hf _ _ hv, EvalError.about_of_not_occurs _ hshown]
  | unshown hf hunshown =>
    rw [apply_append hf _ _ (fun x hx => by subst hx; cases hunshown),
      EvalError.about_of_occurs _ hunshown]
  | @divisor x ys negative hzero =>
    rw [apply_div, quotient, if_pos (any_isZero_iff.2 ⟨negative, hzero⟩)]
    rfl

/-- What is taken has a value. -/
lemma Takes.apply_eq (h : f.Takes arguments v) : f.apply arguments = .ok v := by
  cases h with
  | sum xs =>
    rw [Native.apply, numbersOf_map]
    rfl
  | quotient x hzero =>
    rw [apply_div, Native.quotient, if_neg (mt any_isZero_iff.1 (not_exists.2 hzero))]
    rfl
  | test v => rfl
  | difference x xs | product x xs | less x xs | lessOrEqual x xs =>
    rw [Native.apply, operandsOf_map]
    rfl

lemma Takes.returns (h : f.Takes arguments v) : f.Returns v := by
  have htruth : ∀ flag, Value.ofBool flag = .t ∨ Value.ofBool flag = .nil
    | true => Or.inl rfl
    | false => Or.inr rfl
  cases h with
  | sum | difference | product | quotient => exact ⟨_, rfl⟩
  | less | lessOrEqual | test => exact htruth _

/-- Arguments are taken or refused. -/
lemma takes_or_refuses (f : Native) (arguments : List Value) :
    (∃ v, f.Takes arguments v) ∨ ∃ e, f.Refuses arguments e := by
  by_cases hcount : f.Miscounts arguments
  case pos => exact Or.inr ⟨_, .count hcount⟩
  by_cases hf : f = .numberp
  case pos =>
    subst hf
    obtain ⟨v, rfl⟩ := List.length_eq_one_iff.1 (Decidable.of_not_not hcount)
    exact Or.inl ⟨_, .test v⟩
  rcases exists_numbers arguments with ⟨xs, rfl⟩ | ⟨numbers, v, rest, rfl, hv⟩
  case inr =>
    by_cases hshown : Value.foreign.Occurs v
    · exact Or.inr ⟨_, .unshown hf hshown⟩
    · exact Or.inr ⟨_, .argument hf hv hshown⟩
  -- A function that has not refused the number of its arguments has a first one.
  have hcons : xs.map Value.number ≠ [] → ∃ x rest, xs = x :: rest :=
    fun hne => List.exists_cons_of_ne_nil fun hnil => hne (List.map_eq_nil_iff.2 hnil)
  cases f with
  | numberp => exact absurd rfl hf
  | add => exact Or.inl ⟨_, .sum xs⟩
  | sub =>
    obtain ⟨x, xs, rfl⟩ := hcons hcount
    exact Or.inl ⟨_, .difference x xs⟩
  | mul =>
    obtain ⟨x, xs, rfl⟩ := hcons hcount
    exact Or.inl ⟨_, .product x xs⟩
  | lt =>
    obtain ⟨x, xs, rfl⟩ := hcons hcount
    exact Or.inl ⟨_, .less x xs⟩
  | le =>
    obtain ⟨x, xs, rfl⟩ := hcons hcount
    exact Or.inl ⟨_, .lessOrEqual x xs⟩
  | div =>
    obtain ⟨x, ys, rfl⟩ := hcons hcount
    by_cases hzero : ∃ negative, .zero negative ∈ ys
    · obtain ⟨negative, hzero⟩ := hzero
      exact Or.inr ⟨_, .divisor hzero⟩
    · exact Or.inl ⟨_, .quotient x (not_exists.1 hzero)⟩

/-- A function fails exactly with what it says against its arguments. -/
lemma apply_eq_error_iff : f.apply arguments = .error e ↔ f.Refuses arguments e := by
  refine ⟨fun h => ?_, Refuses.apply_eq⟩
  rcases takes_or_refuses f arguments with ⟨v, htakes⟩ | ⟨e', hrefuses⟩
  · rw [htakes.apply_eq] at h
    cases h
  · rw [hrefuses.apply_eq] at h
    cases h
    exact hrefuses

/-- A function gives exactly what it makes of arguments that it takes. -/
lemma apply_eq_ok_iff : f.apply arguments = .ok v ↔ f.Takes arguments v := by
  refine ⟨fun h => ?_, Takes.apply_eq⟩
  rcases takes_or_refuses f arguments with ⟨v', htakes⟩ | ⟨e, hrefuses⟩
  · rw [htakes.apply_eq] at h
    cases h
    exact htakes
  · rw [hrefuses.apply_eq] at h
    cases h

/-- A number is divided by numbers other than zero only. -/
lemma of_apply_div_eq_ok {x : Binary64} {ys : List Binary64}
    (h : Native.div.apply ((x :: ys).map .number) = .ok v) :
    (∀ y ∈ ys, y.isZero = false) ∧ v = .number (ys.foldl Binary64.div x) := by
  rw [apply_div, Native.quotient] at h
  split at h
  · cases h
  · rename_i hany
    cases h
    exact ⟨fun y hy => Bool.eq_false_iff.2 fun hzero => hany (List.any_eq_true.2 ⟨y, hy, hzero⟩),
      rfl⟩

end Native

/-- **Native functions answer or refuse.**  A native function fails exactly with the first of these
that applies: it does not take so many arguments; an argument should be a number and is not one,
and the leftmost such argument is named, or cannot be shown if something foreign occurs in it; or
the first of some numbers should be divided by a zero, wherever the zero stands among the others.
If none applies it gives a number, or a truth value if it is a comparison or the test for numbers.
In particular a division computes only if none of its divisors is zero, and what stands behind the
leftmost argument that is not a number has no influence. -/
theorem natives_answer_or_refuse (f : Native) (arguments : List Value) :
    (∀ e, f.apply arguments = .error e ↔ f.Refuses arguments e) ∧
    ((∀ e, ¬ f.Refuses arguments e) → ∃ v, f.apply arguments = .ok v ∧ f.Returns v) ∧
    (∀ v, (EvalError.notNumber v).message = "Argument " ++ v.display ++ " is not a number") ∧
    (∀ (x : Binary64) (ys : List Binary64) (v : Value),
      Native.div.apply ((x :: ys).map .number) = .ok v →
        (∀ y ∈ ys, y.isZero = false) ∧ v = .number (ys.foldl Binary64.div x)) ∧
    ∀ (numbers : List Binary64) (v : Value) (rest rest' : List Value), f ≠ .numberp →
      (∀ x, v ≠ .number x) →
        f.apply (numbers.map .number ++ v :: rest) =
          f.apply (numbers.map .number ++ v :: rest') := by
  refine ⟨fun e => Native.apply_eq_error_iff, fun hnone => ?_, fun v => rfl,
    fun x ys v => Native.of_apply_div_eq_ok, fun numbers v rest rest' hf hv => ?_⟩
  · rcases Native.takes_or_refuses f arguments with ⟨v, htakes⟩ | ⟨e, hrefuses⟩
    · exact ⟨v, htakes.apply_eq, htakes.returns⟩
    · exact absurd hrefuses (hnone e)
  · rw [Native.apply_append hf numbers rest hv, Native.apply_append hf numbers rest' hv]

end MiniLisp
