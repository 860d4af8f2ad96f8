/-
# What evaluation fails with

An error of evaluation blames at most one value.  Native functions blame arguments, an
application its head, and special forms their operands; looking up a name, the number of
arguments or operands, a zero divisor and the depth blame no value.  So if an invariant is known
of all values and codes, it is known of the values that errors blame.

The main statement is `Invariant.blames_evaluate`.
-/
import MiniLisp.Proofs.Eval.Invariant

namespace MiniLisp

open Evaluation

/-! ### Errors -/

namespace EvalError

lemma kind?_ne_unreadable (e : EvalError) : e.kind? ≠ some .unreadable := by
  cases e <;> exact nofun

/-- An error blames no value, or one of some values. -/
inductive Blames (blamed : Value → Prop) : EvalError → Prop
  | tooDeep : Blames blamed .tooDeep
  | unbound (name : String) : Blames blamed (.unbound name)
  | nativeArity (f : Native) : Blames blamed (.nativeArity f)
  | formArity (form : SpecialForm) : Blames blamed (.formArity form)
  | divisionByZero : Blames blamed .divisionByZero
  | notNumber {v : Value} (h : blamed v) : Blames blamed (.about .notNumber v)
  | notCallable {v : Value} (h : blamed v) : Blames blamed (.about .notCallable v)
  | notName {v : Value} (h : blamed v) : Blames blamed (.about .notName v)
  | notParameters {v : Value} (h : blamed v) : Blames blamed (.about .notParameters v)

/-- Where all values that are blamed have a display form, errors have a kind. -/
lemma Blames.kind?_isSome {blamed : Value → Prop} {e : EvalError} (h : e.Blames blamed)
    (hblamed : ∀ v, blamed v → v.isDisplayable) : e.kind?.isSome ∨ e = .tooDeep := by
  cases h with
  | tooDeep => exact Or.inr rfl
  | notNumber h | notCallable h | notName h | notParameters h =>
    rw [about_of_isDisplayable _ (hblamed _ h)]
    exact Or.inl rfl
  | _ => exact Or.inl rfl

end EvalError

/-! ### Native functions -/

namespace Native

variable {f : Native} {arguments : List Value} {e : EvalError}

/-- What is divided by is a number other than zero. -/
lemma exists_of_apply_div {v w : Value} {divisors : List Value}
    (h : Native.div.apply (v :: divisors) = .ok w) :
    ∀ u ∈ divisors, ∃ y, u = .number y ∧ y.isZero = false := by
  have htakes := apply_eq_ok_iff.1 h
  generalize harguments : v :: divisors = arguments at htakes
  cases htakes with
  | @quotient x ys hzero =>
    obtain ⟨-, rfl⟩ := List.cons.inj harguments
    intro u hu
    obtain ⟨y, hy, rfl⟩ := List.mem_map.1 hu
    refine ⟨y, rfl, Bool.eq_false_iff.2 fun hy0 => ?_⟩
    obtain ⟨negative, rfl⟩ := Binary64.isZero_iff.1 hy0
    exact hzero negative hy

/-- A native function blames at most one argument. -/
lemma blames_of_apply {blamed : Value → Prop} (h : f.apply arguments = .error e)
    (hblamed : ∀ v ∈ arguments, blamed v) : e.Blames blamed := by
  cases apply_eq_error_iff.1 h with
  | count => exact .nativeArity f
  | argument hf hv hshown =>
    rw [← EvalError.about_of_not_occurs .notNumber hshown]
    exact .notNumber (hblamed _ (by simp))
  | unshown hf hunshown =>
    rw [← EvalError.about_of_occurs .notNumber hunshown]
    exact .notNumber (hblamed _ (by simp))
  | divisor => exact .divisionByZero

/-- Native functions do not nest. -/
lemma apply_ne_tooDeep : f.apply arguments ≠ .error .tooDeep := by
  intro h
  cases apply_eq_error_iff.1 h

end Native

/-! ### Special forms -/

/-- A special form that refuses its operands blames their number or one of them. -/
lemma blames_of_malformed {blamed : Value → Prop} {form : SpecialForm} {operands : List Value}
    {e : EvalError} (h : ∀ evaluate scope, formWith evaluate scope form operands = fail e)
    (hblamed : ∀ v ∈ operands, blamed v) : e.Blames blamed := by
  cases SpecialForm.refuses_of_malformed h with
  | count => exact .formArity form
  | name => exact .notName (hblamed _ List.mem_cons_self)
  | parameters => exact .notParameters (hblamed _ (by simp))

namespace Invariant

variable {α β : Type} (I : Invariant) (blamed : Value → Prop)

/-- If an evaluation fails then its error blames at most one of some values. -/
def FailsBlaming (past : List Event) (m : Evaluation α) : Prop :=
  ∀ σ, I.store past σ → ∀ e, (m σ).result = .error e → e.Blames blamed

/-- Values, and the operands of special forms, of which the invariant is known may be blamed. -/
structure Exposes : Prop where
  value {past : List Event} {v : Value} : I.value past v → blamed v
  operand {past : List Event} {scope : Scope} {form : SpecialForm} {operands : List Value}
    {v : Value} : I.code past scope (form.code operands) → v ∈ operands → blamed v

variable {I blamed} {past : List Event}

/-! ### Evaluations in general -/

lemma failsBlaming_pure (a : α) : I.FailsBlaming blamed past (pure a) :=
  fun _ _ _ he => nomatch he

lemma failsBlaming_fail {e : EvalError} (h : e.Blames blamed) :
    I.FailsBlaming blamed past (fail e : Evaluation α) :=
  fun _ _ _ he => Except.error.inj he ▸ h

lemma failsBlaming_bind {first : Evaluation α} {next : α → Evaluation β}
    {mid : List Event → α → Prop} (hfirst : I.FailsBlaming blamed past first)
    (hkeeps : I.Keeps past first mid)
    (hnext : ∀ more a, mid (past ++ more) a → I.FailsBlaming blamed (past ++ more) (next a)) :
    I.FailsBlaming blamed past (first >>= next) := by
  intro σ hσ e he
  obtain ⟨hstore, hmid⟩ := hkeeps σ hσ
  rw [bind_apply] at he
  cases hresult : (first σ).result with
  | error e' =>
    rw [hresult] at he
    obtain rfl : e' = e := Except.error.inj he
    exact hfirst σ hσ e' hresult
  | ok a =>
    rw [hresult] at he
    exact hnext _ a (hmid a hresult) _ hstore e he

/-! ### The parts of evaluation -/

lemma failsBlaming_lookup (scope : Scope) (name : String) :
    I.FailsBlaming blamed past (lookup scope name) := by
  intro σ _ e he
  rw [lookup] at he
  split at he <;> cases he
  exact .unbound name

section

variable {evaluate : Evaluator} (hkeeps : I.Respects evaluate)
  (he : ∀ past scope code, I.code past scope code →
    I.FailsBlaming blamed past (evaluate scope code))
  (hexposes : I.Exposes blamed)

include he hexposes

lemma failsBlaming_applyWith {f : Value} {arguments : List Value} (hf : I.value past f)
    (ha : ∀ v ∈ arguments, I.value past v) :
    I.FailsBlaming blamed past (applyWith evaluate f arguments) := by
  cases f with
  | native f =>
    exact fun σ _ e h => Native.blames_of_apply h fun v hv => hexposes.value (ha v hv)
  | closure stamp parameters body captured =>
    intro σ hσ e h
    rw [applyWith_closure] at h
    exact he _ _ _ (I.code_entered hσ hf ha) _ (I.store_entered hσ hf ha) e h
  | _ => exact failsBlaming_fail (.notCallable (hexposes.value hf))

include hkeeps

omit hexposes in
lemma failsBlaming_evaluateEach {scope : Scope} {codes : List Value}
    (h : ∀ c ∈ codes, I.code past scope c) :
    I.FailsBlaming blamed past (evaluateEach evaluate scope codes) := by
  induction codes generalizing past with
  | nil => exact failsBlaming_pure _
  | cons code codes ih =>
    have hcode := h code List.mem_cons_self
    refine failsBlaming_bind (he _ _ _ hcode) (hkeeps _ _ _ hcode) fun more v _ => ?_
    have hcodes : ∀ c ∈ codes, I.code (past ++ more) scope c := fun c hc =>
      I.code_append more (h c (List.mem_cons_of_mem _ hc))
    exact failsBlaming_bind (ih hcodes) (keeps_evaluateEach hkeeps hcodes) fun _ _ _ =>
      failsBlaming_pure _

omit hexposes in
lemma failsBlaming_conditional {scope : Scope} {condition consequent alternative : Value}
    (h : I.code past scope
      (SpecialForm.conditional.code [condition, consequent, alternative])) :
    I.FailsBlaming blamed past
      (formWith evaluate scope .conditional [condition, consequent, alternative]) := by
  have hcondition : I.code past scope condition := I.code_parts h (by simp)
  refine failsBlaming_bind (he _ _ _ hcondition) (hkeeps _ _ _ hcondition) fun more v _ => ?_
  by_cases hv : v.isTrue
  · rw [if_pos hv]
    exact he _ _ _ (I.code_append more (I.code_parts h (by simp)))
  · rw [if_neg hv]
    exact he _ _ _ (I.code_append more (I.code_parts h (by simp)))

omit hexposes in
lemma failsBlaming_defparameter {scope : Scope} {name : String} {code : Value}
    (h : I.code past scope (SpecialForm.defparameter.code [.symbol name, code])) :
    I.FailsBlaming blamed past
      (formWith evaluate scope .defparameter [.symbol name, code]) := by
  have hcode : I.code past scope code := I.code_parts h (by simp)
  rw [formWith_defparameter]
  -- Once the operand has a value nothing can fail.
  exact failsBlaming_bind (he _ _ _ hcode) (hkeeps _ _ _ hcode) fun _ _ _ _ _ _ hresult =>
    nomatch hresult

lemma failsBlaming_application {scope : Scope} {head : Value} {operands : List Value}
    (hhead : formOf? head = none) (h : I.code past scope (.list (head :: operands))) :
    I.FailsBlaming blamed past (evaluateWith evaluate scope (.list (head :: operands))) := by
  have hparts : ∀ c ∈ head :: operands, I.code past scope c := fun c hc =>
    I.code_parts h (by rwa [Value.parts_application hhead])
  rw [evaluateWith_application evaluate scope operands hhead]
  have hcode := hparts head List.mem_cons_self
  refine failsBlaming_bind (he _ _ _ hcode) (hkeeps _ _ _ hcode) fun more f hf => ?_
  have hoperands : ∀ c ∈ operands, I.code (past ++ more) scope c := fun c hc =>
    I.code_append more (hparts c (List.mem_cons_of_mem _ hc))
  refine failsBlaming_bind (failsBlaming_evaluateEach hkeeps he hoperands)
    (keeps_evaluateEach hkeeps hoperands) fun more' vs hvs => ?_
  exact failsBlaming_applyWith he hexposes (I.value_append more' hf) hvs

lemma failsBlaming_evaluateWith {scope : Scope} {code : Value} (h : I.code past scope code) :
    I.FailsBlaming blamed past (evaluateWith evaluate scope code) := by
  cases shape code with
  | self hself =>
    rw [evaluateWith_self evaluate scope hself]
    exact failsBlaming_pure _
  | symbol name => exact failsBlaming_lookup scope name
  | unit => exact failsBlaming_pure _
  | quotation datum =>
    rw [evaluateWith_form]
    exact failsBlaming_pure _
  | conditional condition consequent alternative =>
    rw [evaluateWith_form]
    exact failsBlaming_conditional hkeeps he h
  | defparameter name code =>
    rw [evaluateWith_form]
    exact failsBlaming_defparameter hkeeps he h
  | defun name parameters body =>
    rw [definitionCode, evaluateWith_form]
    intro σ _ e hresult
    rw [formWith_defun] at hresult
    cases hresult
  | malformed form operands e hform =>
    rw [evaluateWith_form, hform]
    exact failsBlaming_fail (blames_of_malformed hform fun v hv => hexposes.operand h hv)
  | application head operands hhead => exact failsBlaming_application hkeeps he hexposes hhead h

end

/-! ### Evaluation -/

/-- **Where an invariant is known of values and codes, errors blame only such.**  An evaluation
that fails, at any depth, blames no value or one that may be blamed. -/
theorem blames_evaluate (hexposes : I.Exposes blamed) (depth : Nat) :
    ∀ past scope code, I.code past scope code →
      I.FailsBlaming blamed past (evaluate depth scope code) := by
  induction depth with
  | zero => exact fun _ _ _ _ => failsBlaming_fail .tooDeep
  | succ depth ih =>
    intro past scope code h
    exact failsBlaming_bind (fun _ _ _ hresult => nomatch hresult) (keeps_visited h)
      fun more _ hcode => failsBlaming_evaluateWith (I.respects_evaluate depth) ih hexposes hcode

end Invariant

end MiniLisp
