/-
# The inspected form of a value

What the log and the inspection of scopes show: it tells a text from a symbol and a whole
number from a digit run, and it escapes what cannot be printed.
-/
import MiniLisp.Decimal.Shortest
import MiniLisp.Decimal.Layout
import MiniLisp.Text.Quoted
import MiniLisp.Value.Basic

namespace MiniLisp

/-- The inspected form of a number: its shortest decimal with a point or an exponent. -/
def Binary64.inspect : Binary64 → String
  | .nan => "nan"
  | .infinite negative => if negative then "-inf" else "inf"
  | .finite negative rank => String.ofList (Decimal.shortest negative rank).inspected

/-- The name that a native function is inspected under. -/
def Native.inspect : Native → String
  | .add => "add"
  | .sub => "sub"
  | .mul => "mul"
  | .div => "div"
  | .lt => "lt"
  | .le => "lte"
  | .numberp => "numberp"

namespace Value

/-- The inspected form of a closure: its parameters only. -/
def inspectClosure (parameters : List String) : String :=
  "<closure (" ++ " ".intercalate parameters ++ ")>"

/-- Inspected elements between parentheses; a single one is followed by a comma. -/
def inspectItems : List String → String
  | [item] => "(" ++ item ++ ",)"
  | items => "(" ++ ", ".intercalate items ++ ")"

mutual

/-- The inspected form of a value. -/
def inspect : Value → String
  | .number x => x.inspect
  | .text s => Text.quoted s
  | .symbol name => "Symbol(" ++ Text.quoted name ++ ")"
  | .list items => inspectItems (inspectAll items)
  | .nil => "NIL"
  | .t => "T"
  | .native f => "<function " ++ f.inspect ++ ">"
  | .closure _ parameters _ _ => inspectClosure parameters
  | .foreign => "None"

/-- The inspected forms of the elements of a list. -/
def inspectAll : List Value → List String
  | [] => []
  | v :: vs => inspect v :: inspectAll vs

end

theorem inspectAll_eq_map (vs : List Value) : inspectAll vs = vs.map inspect := by
  induction vs with
  | nil => rfl
  | cons v vs ih => simp only [inspectAll, List.map_cons, ih]

end Value

end MiniLisp
