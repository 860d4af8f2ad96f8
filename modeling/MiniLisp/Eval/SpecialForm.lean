/-
# Special forms

A list whose head is the symbol of a special form is not an application: the form takes
the rest of the list unevaluated and decides itself what of it is evaluated.
-/

namespace MiniLisp

/-- The special forms. -/
inductive SpecialForm where
  /-- Gives its operand as it is. -/
  | quotation
  /-- Evaluates one of two operands. -/
  | conditional
  /-- Binds a name to the value of an operand. -/
  | defparameter
  /-- Binds a name to a new function. -/
  | defun
deriving DecidableEq, Repr

namespace SpecialForm

/-- The symbol of a special form. -/
def name : SpecialForm → String
  | .quotation => "quote"
  | .conditional => "if"
  | .defparameter => "defparameter"
  | .defun => "defun"

/-- All special forms. -/
def all : List SpecialForm := [.quotation, .conditional, .defparameter, .defun]

/-- The special form of a symbol. -/
def ofName? (name : String) : Option SpecialForm := all.find? (·.name = name)

/-- What is said of a special form that has too few or too many operands. -/
def arityMessage : SpecialForm → String
  | .quotation => "quote expects exactly 1 argument"
  | .conditional => "if requires a condition, a then-expression and an else-expression"
  | .defparameter => "defparameter requires exactly 2 arguments"
  | .defun => "defun requires a name, a parameter list and a body"

theorem ofName?_eq_some_iff {name : String} {form : SpecialForm} :
    ofName? name = some form ↔ form.name = name := by
  constructor
  · intro h
    simpa using List.find?_some h
  · rintro rfl
    cases form <;> rfl

end SpecialForm

end MiniLisp
