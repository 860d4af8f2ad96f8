/-
# The log

The records that a session leaves in the log: what was read, what is evaluated, which names
were defined, which functions were called with the wrong number of arguments, and why a line
gave no value.
-/
import MiniLisp.Eval.Run
import MiniLisp.Reader.Error
import MiniLisp.Value.Inspect

namespace MiniLisp

/-- A record of the log. -/
inductive Record where
  /-- An expression was read; some characters of the source follow it. -/
  | read (code : Value) (left : Nat)
  /-- An expression is about to be evaluated. -/
  | evaluating (code : Value)
  /-- A name was bound to the value of an operand. -/
  | parameterDefined (name : String)
  /-- A name was bound to a new function. -/
  | functionDefined (name : String) (parameters : List String)
  /-- A function is called with more or fewer arguments than it has parameters. -/
  | applying (parameters : List String) (count : Nat)
  /-- No expression could be read. -/
  | unreadable (e : ReadError)
  /-- The evaluation failed. -/
  | failed (e : EvalError)
deriving Repr

/-- A record in words. -/
def Record.message : Record → String
  | .read code left => s!"read {code.inspect}, {left} chars left"
  | .evaluating code => s!"evaluating {code.inspect}"
  | .parameterDefined name => s!"defparameter {name}"
  | .functionDefined name parameters => s!"defun {name} {Value.inspectClosure parameters}"
  | .applying parameters count =>
    s!"applying {Value.inspectClosure parameters} to {count} argument(s)"
  | .unreadable e => s!"parse error: {e.message}"
  | .failed e => s!"evaluation error: {e.message}"

/-- The record that an event leaves.  An application leaves one only if the number of arguments
is not the number of parameters. -/
def Event.record? : Event → Option Record
  | .visited .. => none
  | .entered parameters _ arguments _ =>
    if arguments.length = parameters.length then none
    else some (.applying parameters arguments.length)
  | .parameterDefined name _ _ => some (.parameterDefined name)
  | .functionDefined name parameters _ _ => some (.functionDefined name parameters)

end MiniLisp
