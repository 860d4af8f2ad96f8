/-
# What evaluation refuses

The errors of evaluation, by cause, their kinds and their messages.  A message may show the
value that is at fault; a value that has no display form cannot be shown, and then that is the
error.
-/
import MiniLisp.Eval.SpecialForm
import MiniLisp.Scope.Builtins
import MiniLisp.Value.Display

namespace MiniLisp

/-- Why an evaluation gave no value. -/
inductive EvalError where
  /-- A symbol has no binding in the scope or outside it. -/
  | unbound (name : String)
  /-- The head of an application is not a function. -/
  | notCallable (head : Value)
  /-- An argument of a native function should be a number. -/
  | notNumber (argument : Value)
  /-- A native function was given too few arguments, or not just one. -/
  | nativeArity (f : Native)
  /-- A special form was given too few or too many operands. -/
  | formArity (form : SpecialForm)
  /-- A number was to be divided by zero. -/
  | divisionByZero
  /-- What a definition should bind is not a symbol. -/
  | notName (operand : Value)
  /-- The parameters of a function are not a list of symbols. -/
  | notParameters (operand : Value)
  /-- A value was to be shown that has no display form. -/
  | undisplayable
  /-- Evaluations were nested more deeply than allowed. -/
  | tooDeep
deriving Repr

/-- The kinds of failures. -/
inductive FailureKind where
  /-- No expression can be read. -/
  | unreadable
  /-- A name means nothing. -/
  | unbound
  /-- What is applied is not a function. -/
  | notCallable
  /-- An argument is not a number. -/
  | notNumber
  /-- There are too few or too many arguments or operands. -/
  | arity
  /-- A divisor is zero. -/
  | divisionByZero
  /-- What should be bound is not a name. -/
  | notName
  /-- What should be parameters is not a list of names. -/
  | notParameters
deriving DecidableEq, Repr

namespace EvalError

/-- The kind of an error.  That a value has no display form, or that evaluation nests too
deeply, is of no kind: these are no errors of the language, and who handles errors by their kind
does not handle them. -/
def kind? : EvalError → Option FailureKind
  | .unbound _ => some .unbound
  | .notCallable _ => some .notCallable
  | .notNumber _ => some .notNumber
  | .nativeArity _ => some .arity
  | .formArity _ => some .arity
  | .divisionByZero => some .divisionByZero
  | .notName _ => some .notName
  | .notParameters _ => some .notParameters
  | .undisplayable => none
  | .tooDeep => none

/-- The error with a value to be shown. -/
def about (cause : Value → EvalError) (v : Value) : EvalError :=
  if v.isDisplayable then cause v else .undisplayable

/-- The error in words. -/
def message : EvalError → String
  | .unbound name => "unbound variable: " ++ name
  | .notCallable head => "illegal function call: " ++ head.display
  | .notNumber argument => "Argument " ++ argument.display ++ " is not a number"
  | .nativeArity f =>
    if f = .numberp then f.name ++ " requires exactly 1 argument"
    else f.name ++ " requires at least 1 argument"
  | .formArity form => form.arityMessage
  | .divisionByZero => "division by zero"
  | .notName operand => "not a legal name: " ++ operand.display
  | .notParameters operand =>
    "argument error: parameter list must be a list of symbols, got " ++ operand.display
  | .undisplayable => "not an rlisp value: None"
  | .tooDeep => "evaluation nests too deeply"

end EvalError

/-- The display form of a value, if it has one. -/
def Value.display? (v : Value) : Except EvalError String :=
  if v.isDisplayable then .ok v.display else .error .undisplayable

end MiniLisp
