/-
# What special forms refuse

A special form checks its operands before it does anything: how many there are, then, if it is a
definition, whether what it should bind is a name, and a function definition at last whether its
parameters are a list of names.  The first check that fails is the error.  Operands are refused
or of the one shape that the form takes, and which is the case does not depend on what any code
evaluates to.
-/
import Mathlib.Data.List.Basic
import Mathlib.Tactic.Lemma
import MiniLisp.Eval.Basic

namespace MiniLisp

open Evaluation

namespace EvalError

lemma about_of_isDisplayable (cause : Value → EvalError) {v : Value} (h : v.isDisplayable) :
    about cause v = cause v :=
  if_pos h

/-- To show a value never nests too deeply. -/
lemma about_ne_tooDeep {cause : Value → EvalError} {v : Value} (h : cause v ≠ .tooDeep) :
    about cause v ≠ .tooDeep := by
  unfold about
  split
  · exact h
  · exact nofun

end EvalError

lemma symbolNames?_eq_some_iff {items : List Value} {names : List String} :
    symbolNames? items = some names ↔ items = names.map .symbol := by
  induction items generalizing names with
  | nil => cases names <;> simp [symbolNames?]
  | cons item items ih =>
    cases item with
    | symbol name =>
      simp only [symbolNames?, Option.map_eq_some_iff, ih]
      constructor
      · rintro ⟨rest, rfl, rfl⟩
        rfl
      · intro h
        obtain ⟨first, rest, rfl, hfirst, rfl⟩ := List.map_eq_cons_iff.1 h.symm
        exact ⟨rest, rfl, by rw [Value.symbol.inj hfirst]⟩
    | _ => cases names <;> simp [symbolNames?]

lemma parametersOf_eq_ok_iff {operand : Value} {parameters : List String} :
    parametersOf operand = .ok parameters ↔ operand = .list (parameters.map .symbol) := by
  cases operand with
  | list items =>
    rw [parametersOf, Value.list.injEq, ← symbolNames?_eq_some_iff]
    cases symbolNames? items <;> simp
  | _ => simp [parametersOf]

/-- What a definition should bind has to be a symbol. -/
lemma nameOf_eq_error {target : Value} (h : target.symbol? = none) :
    nameOf target = .error (.about .notName target) := by
  cases target <;> simp_all [nameOf, Value.symbol?]

lemma parametersOf_eq_error {operand : Value}
    (h : ∀ names : List String, operand ≠ .list (names.map .symbol)) :
    parametersOf operand = .error (.about .notParameters operand) := by
  cases hparameters : parametersOf operand with
  | ok names => exact absurd (parametersOf_eq_ok_iff.1 hparameters) (h names)
  | error e =>
    cases operand with
    | list items =>
      rw [parametersOf] at hparameters
      split at hparameters <;> cases hparameters
      rfl
    | _ => exact hparameters.symm

namespace SpecialForm

/-- How many operands a form wants. -/
def arity : SpecialForm → Nat
  | .quotation => 1
  | .conditional => 3
  | .defparameter => 2
  | .defun => 3

/-- Whether a form is a definition. -/
def isDefinition : SpecialForm → Bool
  | .defparameter => true
  | .defun => true
  | _ => false

/-- What a form says against its operands, by the first check that they do not stand. -/
inductive Refuses : SpecialForm → List Value → EvalError → Prop
  /-- There are too few or too many. -/
  | count {form : SpecialForm} {operands : List Value} (hcount : operands.length ≠ form.arity) :
    Refuses form operands (.formArity form)
  /-- They are as many as a definition wants, but the first one is not a name. -/
  | name {form : SpecialForm} {target : Value} {rest : List Value} (hform : form.isDefinition)
    (hcount : (target :: rest).length = form.arity) (hname : ∀ name, target ≠ .symbol name) :
    Refuses form (target :: rest) (.about .notName target)
  /-- The first one is a name, but the parameters are not a list of names. -/
  | parameters {name : String} {parameterList body : Value}
    (hparameters : ∀ names : List String, parameterList ≠ .list (names.map .symbol)) :
    Refuses .defun [.symbol name, parameterList, body] (.about .notParameters parameterList)

/-- The operands that a form does not refuse. -/
inductive Takes : SpecialForm → List Value → Prop
  | quotation (datum : Value) : Takes .quotation [datum]
  | conditional (condition consequent alternative : Value) :
    Takes .conditional [condition, consequent, alternative]
  | defparameter (name : String) (code : Value) : Takes .defparameter [.symbol name, code]
  | defun (name : String) (parameters : List String) (body : Value) :
    Takes .defun [.symbol name, .list (parameters.map .symbol), body]

variable {form : SpecialForm} {operands : List Value} {e : EvalError}

/-- Operands are taken or refused. -/
lemma takes_or_refuses (form : SpecialForm) (operands : List Value) :
    form.Takes operands ∨ ∃ e, form.Refuses operands e := by
  by_cases hcount : operands.length = form.arity
  case neg => exact Or.inr ⟨_, .count hcount⟩
  cases form with
  | quotation =>
    obtain ⟨datum, rfl⟩ := List.length_eq_one_iff.1 hcount
    exact Or.inl (.quotation datum)
  | conditional =>
    obtain ⟨condition, consequent, alternative, rfl⟩ := List.length_eq_three.1 hcount
    exact Or.inl (.conditional condition consequent alternative)
  | defparameter =>
    obtain ⟨target, code, rfl⟩ := List.length_eq_two.1 hcount
    by_cases hname : ∃ name, target = .symbol name
    · obtain ⟨name, rfl⟩ := hname
      exact Or.inl (.defparameter name code)
    · exact Or.inr ⟨_, .name rfl hcount (not_exists.1 hname)⟩
  | defun =>
    obtain ⟨target, parameterList, body, rfl⟩ := List.length_eq_three.1 hcount
    by_cases hname : ∃ name, target = .symbol name
    · obtain ⟨name, rfl⟩ := hname
      by_cases hparameters : ∃ names : List String, parameterList = .list (names.map .symbol)
      · obtain ⟨parameters, rfl⟩ := hparameters
        exact Or.inl (.defun name parameters body)
      · exact Or.inr ⟨_, .parameters (not_exists.1 hparameters)⟩
    · exact Or.inr ⟨_, .name rfl hcount (not_exists.1 hname)⟩

namespace Refuses

lemma formWith_of_count (hcount : operands.length ≠ form.arity) (evaluate : Evaluator)
    (scope : Scope) : formWith evaluate scope form operands = fail (.formArity form) := by
  cases form with
  | quotation =>
    rcases operands with _ | ⟨_, _ | ⟨_, _⟩⟩
    case cons.nil => exact absurd rfl hcount
    all_goals rfl
  | defparameter =>
    rcases operands with _ | ⟨_, _ | ⟨_, _ | ⟨_, _⟩⟩⟩
    case cons.cons.nil => exact absurd rfl hcount
    all_goals rfl
  | conditional | defun =>
    rcases operands with _ | ⟨_, _ | ⟨_, _ | ⟨_, _ | ⟨_, _⟩⟩⟩⟩
    case cons.cons.cons.nil => exact absurd rfl hcount
    all_goals rfl

/-- Operands that are refused are not evaluated. -/
lemma formWith_eq_fail (h : form.Refuses operands e) (evaluate : Evaluator) (scope : Scope) :
    formWith evaluate scope form operands = fail e := by
  cases h with
  | count hcount => exact formWith_of_count hcount evaluate scope
  | @name form target rest hform hcount hname =>
    have htarget : nameOf target = .error (.about .notName target) := by
      refine nameOf_eq_error (Option.eq_none_iff_forall_ne_some.2 fun name hsome => ?_)
      exact hname name (Value.symbol?_eq_some_iff.1 hsome)
    cases form with
    | quotation => cases hform
    | conditional => cases hform
    | defparameter =>
      obtain ⟨code, rfl⟩ := List.length_eq_one_iff.1 (Nat.succ.inj hcount)
      rw [formWith, htarget]
      rfl
    | defun =>
      obtain ⟨parameterList, body, rfl⟩ := List.length_eq_two.1 (Nat.succ.inj hcount)
      rw [formWith, htarget]
      rfl
  | parameters hparameters =>
    rw [formWith, parametersOf_eq_error hparameters]
    rfl

/-- Nothing is refused for nesting too deeply. -/
lemma ne_tooDeep (h : form.Refuses operands e) : e ≠ .tooDeep := by
  cases h with
  | count => exact nofun
  | name => exact EvalError.about_ne_tooDeep nofun
  | parameters => exact EvalError.about_ne_tooDeep nofun

end Refuses

/-- What a form makes of operands that it takes if all code evaluates to `nil`. -/
lemma Takes.exists_of_pure_nil (h : form.Takes operands) (scope : Scope) (σ : Store) :
    ∃ v, (formWith (fun _ _ => pure .nil) scope form operands σ).result = .ok v := by
  cases h with
  | quotation datum => exact ⟨datum, rfl⟩
  | conditional => exact ⟨.nil, rfl⟩
  | defparameter name => exact ⟨.symbol name, rfl⟩
  | defun name parameters body =>
    rw [formWith, parametersOf_eq_ok_iff.2 rfl]
    exact ⟨.symbol name, rfl⟩

/-- A form that fails whatever its operands evaluate to refuses them. -/
lemma refuses_of_malformed (h : ∀ evaluate scope, formWith evaluate scope form operands = fail e) :
    form.Refuses operands e := by
  rcases takes_or_refuses form operands with htakes | ⟨e', hrefuses⟩
  · obtain ⟨v, hv⟩ := htakes.exists_of_pure_nil (.root 0) .empty
    rw [h] at hv
    cases hv
  · have heq := hrefuses.formWith_eq_fail (fun _ _ => pure .nil) (.root 0)
    rw [h] at heq
    obtain rfl : e = e' := Except.error.inj (congrArg Run.result (congrFun heq .empty))
    exact hrefuses

end SpecialForm

end MiniLisp
