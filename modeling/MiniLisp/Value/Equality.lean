/-
# Equality of values

Values of different kinds are never equal.  Numbers are equal if their exact values are, so
zeros of either sign are and what is not a number equals nothing; lists are equal element by
element; a function equals itself only.  Equal values have equal hashes, but a hash does not
tell the kinds apart: a symbol hashes like the text of its name.
-/
import MiniLisp.Binary64.Arithmetic
import MiniLisp.Value.Basic

namespace MiniLisp.Value

mutual

/-- Whether two values are equal by what they hold: a list is compared element by element, also
with a copy of itself. -/
def same : Value → Value → Bool
  | .number x, .number y => x.agrees y
  | .text s, .text s' => s == s'
  | .symbol name, .symbol name' => name == name'
  | .list vs, .list ws => sameAll vs ws
  | .nil, .nil => true
  | .t, .t => true
  | .native f, .native g => f == g
  | .closure stamp .., .closure stamp' .. => stamp == stamp'
  | .foreign, .foreign => true
  | _, _ => false

/-- Whether two lists are as long as each other and equal element by element. -/
def sameAll : List Value → List Value → Bool
  | [], [] => true
  | v :: vs, w :: ws => same v w && sameAll vs ws
  | _, _ => false

end

mutual

/-- A hash that equal values share. -/
def hashCode : Value → UInt64
  | .number x => mixHash 1 (hash x.place?)
  | .text s => mixHash 2 (hash s)
  | .symbol name => mixHash 2 (hash name)
  | .list vs => mixHash 3 (hashAll vs)
  | .nil => 4
  | .t => 5
  | .native f => mixHash 6 (hash f.ctorIdx)
  | .closure stamp .. => mixHash 7 (hash stamp)
  | .foreign => 8

/-- A hash that lists share if they are equal element by element. -/
def hashAll : List Value → UInt64
  | [] => 0
  | v :: vs => mixHash (hashCode v) (hashAll vs)

end

/-- The values of a list that equal none of those seen nor any earlier one of the list. -/
def distinctFrom (seen : List Value) : List Value → List Value
  | [] => []
  | v :: vs =>
    if seen.any (same · v) then distinctFrom seen vs else v :: distinctFrom (v :: seen) vs

/-- The first of each class of equal values, in order. -/
def distinct (vs : List Value) : List Value := distinctFrom [] vs

/-- Whether a value equals itself when it is compared with itself and not with one alike: the
elements of a list are then the same elements, whatever they are. -/
def isReflexive : Value → Bool
  | .number x => x.agrees x
  | _ => true

/-- Which values of a list equal which others; on the diagonal each is compared with itself. -/
def equalityTable (vs : List Value) : List (List Bool) :=
  vs.zipIdx.map fun (v, i) =>
    vs.zipIdx.map fun (w, j) => if i = j then v.isReflexive else same v w

end MiniLisp.Value
