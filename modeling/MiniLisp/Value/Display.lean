/-
# The display form of a value

What the shell prints.  Numbers are written in plain decimals, texts in upper case between
quotes, lists as their elements between parentheses, and functions as one marker.  A
foreign value has no display form, nor has a list that holds one.
-/
import MiniLisp.Decimal.Shortest
import MiniLisp.Decimal.Layout
import MiniLisp.Text.Upper
import MiniLisp.Value.Basic

namespace MiniLisp

/-- The display form of a number: its shortest decimal without an exponent. -/
def Binary64.display : Binary64 → String
  | .nan => "NaN"
  | .infinite negative => if negative then "-inf" else "inf"
  | .finite negative rank => String.ofList (Decimal.shortest negative rank).plain

namespace Value

mutual

/-- The display form of a value; for a foreign value, which has none, the text that stands
for it in an inspected value. -/
def display : Value → String
  | .number x => x.display
  | .text s => "\"" ++ Text.upper s ++ "\""
  | .symbol name => name
  | .list items => "(" ++ " ".intercalate (displayAll items) ++ ")"
  | .nil => "NIL"
  | .t => "T"
  | .native _ => "<function>"
  | .closure .. => "<function>"
  | .foreign => "None"

/-- The display forms of the elements of a list. -/
def displayAll : List Value → List String
  | [] => []
  | v :: vs => display v :: displayAll vs

end

mutual

/-- Whether a value has a display form. -/
def isDisplayable : Value → Bool
  | .list items => areDisplayable items
  | .foreign => false
  | _ => true

/-- Whether all elements of a list have a display form. -/
def areDisplayable : List Value → Bool
  | [] => true
  | v :: vs => isDisplayable v && areDisplayable vs

end

theorem displayAll_eq_map (vs : List Value) : displayAll vs = vs.map display := by
  induction vs with
  | nil => rfl
  | cons v vs ih => simp only [displayAll, List.map_cons, ih]

theorem areDisplayable_eq_all (vs : List Value) : areDisplayable vs = vs.all isDisplayable := by
  induction vs with
  | nil => rfl
  | cons v vs ih => simp only [areDisplayable, List.all_cons, ih]

end Value

end MiniLisp
