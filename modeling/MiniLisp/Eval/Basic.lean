/-
# Evaluation

A symbol evaluates to what it means in the scope, the empty list to `nil`, a list headed by
the symbol of a special form as that form says, and any other list by evaluating all its
elements from left to right and applying the first to the others.  Everything else
evaluates to itself.

Code may nest without bound, by recursion of the functions it defines, so evaluation is
given a depth that it may nest to; if it needs more it ends with the error `tooDeep`, and
once a depth is enough any greater one gives the same run.
-/
import MiniLisp.Eval.Native
import MiniLisp.Eval.Run

namespace MiniLisp

open Evaluation

/-- What evaluates code in a scope. -/
abbrev Evaluator := Scope → Value → Evaluation Value

/-! ### Applying -/

/-- Applies a function to arguments; `evaluate` evaluates the body of a closure. -/
def applyWith (evaluate : Evaluator) : Value → List Value → Evaluation Value
  | .native f, arguments => ofExcept (f.apply arguments)
  | .closure _ parameters body captured, arguments => do
    let scope ← make fun σ => σ.enter parameters arguments captured
    note (.entered parameters body arguments scope)
    evaluate scope body
  | head, _ => fail (.about .notCallable head)

/-! ### Special forms -/

/-- The name that the first operand of a definition has to be. -/
def nameOf : Value → Except EvalError String
  | .symbol name => .ok name
  | operand => .error (.about .notName operand)

/-- The names that are in a list of symbols, if it is one. -/
def symbolNames? : List Value → Option (List String)
  | [] => some []
  | .symbol name :: rest => (symbolNames? rest).map (name :: ·)
  | _ :: _ => none

/-- The parameters that the second operand of a function definition has to be. -/
def parametersOf (operand : Value) : Except EvalError (List String) :=
  match operand with
  | .list items =>
    match symbolNames? items with
    | some names => .ok names
    | none => .error (.about .notParameters operand)
  | _ => .error (.about .notParameters operand)

/-- Evaluates a special form; `evaluate` evaluates those of its operands that it needs. -/
def formWith (evaluate : Evaluator) (scope : Scope) :
    SpecialForm → List Value → Evaluation Value
  | .quotation, [operand] => pure operand
  | .conditional, [condition, consequent, alternative] => do
    let v ← evaluate scope condition
    if v.isTrue then evaluate scope consequent else evaluate scope alternative
  | .defparameter, [target, code] => do
    let name ← ofExcept (nameOf target)
    let value ← evaluate scope code
    change (·.set scope name value)
    note (.parameterDefined name value scope)
    pure (.symbol name)
  | .defun, [target, parameterList, body] => do
    let name ← ofExcept (nameOf target)
    let parameters ← ofExcept (parametersOf parameterList)
    let closure ← make fun σ => σ.newClosure parameters body scope
    change (·.set scope name closure)
    note (.functionDefined name parameters body scope)
    pure (.symbol name)
  | form, _ => fail (.formArity form)

/-! ### Evaluating -/

/-- Evaluates codes one after another. -/
def evaluateEach (evaluate : Evaluator) (scope : Scope) : List Value → Evaluation (List Value)
  | [] => pure []
  | code :: codes => do
    let v ← evaluate scope code
    let vs ← evaluateEach evaluate scope codes
    pure (v :: vs)

/-- The special form that the head of a list stands for. -/
def formOf? : Value → Option SpecialForm
  | .symbol name => SpecialForm.ofName? name
  | _ => none

/-- Evaluates code; `evaluate` evaluates its parts. -/
def evaluateWith (evaluate : Evaluator) (scope : Scope) : Value → Evaluation Value
  | .symbol name => lookup scope name
  | .list [] => pure .nil
  | .list (head :: operands) =>
    match formOf? head with
    | some form => formWith evaluate scope form operands
    | none => do
      let f ← evaluate scope head
      let arguments ← evaluateEach evaluate scope operands
      applyWith evaluate f arguments
  | code => pure code

/-- Evaluates code in a scope, nesting to a depth at most. -/
def evaluate : (depth : Nat) → Evaluator
  | 0 => fun _ _ => fail .tooDeep
  | depth + 1 => fun scope code => do
    note (.visited code scope)
    evaluateWith (evaluate depth) scope code

/-- Applies a function to arguments that are values already, nesting to a depth at most. -/
def apply (depth : Nat) : Value → List Value → Evaluation Value := applyWith (evaluate depth)

end MiniLisp
