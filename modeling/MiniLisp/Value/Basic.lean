/-
# Values

Code and data are the same: what the reader returns is a value, what evaluation takes
and what it returns are values.
-/
import MiniLisp.Binary64.Basic
import MiniLisp.Scope.Basic

namespace MiniLisp

/-- The functions that are not written in the language itself. -/
inductive Native where
  | add
  | sub
  | mul
  | div
  | lt
  | le
  | numberp
deriving DecidableEq, Repr

/-- A value of the language. -/
inductive Value where
  /-- A number. -/
  | number (x : Binary64)
  /-- A text, with the characters between its quotes as they were written. -/
  | text (s : String)
  /-- A symbol. -/
  | symbol (name : String)
  /-- A list.  The empty list is not `nil`. -/
  | list (items : List Value)
  /-- The only false value. -/
  | nil
  /-- The value of a true predicate. -/
  | t
  /-- A function that is not written in the language itself. -/
  | native (f : Native)
  /-- A function with its parameters and body, and the scope that it was made in.  The
  stamp tells it from any other function, even one alike in all else. -/
  | closure (stamp : Nat) (parameters : List String) (body : Value) (scope : Scope)
  /-- The absence of a value.  It can be handed in from outside only: it evaluates to itself,
  counts as true and cannot be displayed. -/
  | foreign
deriving Repr

namespace Value

/-- The value of a truth value. -/
def ofBool (flag : Bool) : Value := if flag then .t else .nil

/-- Whether a value counts as true: only `nil` does not. -/
def isTrue : Value → Bool
  | .nil => false
  | _ => true

/-- The number that a value is. -/
def number? : Value → Option Binary64
  | .number x => some x
  | _ => none

/-- The name of the symbol that a value is. -/
def symbol? : Value → Option String
  | .symbol name => some name
  | _ => none

@[simp] theorem number?_number (x : Binary64) : (number x).number? = some x := rfl

@[simp] theorem symbol?_symbol (name : String) : (symbol name).symbol? = some name := rfl

theorem number?_eq_some_iff {v : Value} {x : Binary64} : v.number? = some x ↔ v = .number x := by
  cases v <;> simp [number?]

theorem symbol?_eq_some_iff {v : Value} {name : String} :
    v.symbol? = some name ↔ v = .symbol name := by
  cases v <;> simp [symbol?]

@[simp] theorem isTrue_ofBool (flag : Bool) : (ofBool flag).isTrue = flag := by
  cases flag <;> rfl

end Value

end MiniLisp
