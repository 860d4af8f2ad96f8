/-
# Arithmetic

Sum, product and quotient of two numbers are the numbers nearest to the exact results.
An exact zero takes the sign of its operands where they agree on one: a sum of two zeros
is negative only if both are, a product or quotient is negative if exactly one operand is.
-/
import MiniLisp.Binary64.Rounding

namespace MiniLisp.Binary64

/-- The number with the other sign. -/
def neg : Binary64 → Binary64
  | .nan => .nan
  | .finite negative rank => .finite (!negative) rank
  | .infinite negative => .infinite (!negative)

/-- The sum, rounded. -/
def add : Binary64 → Binary64 → Binary64
  | .nan, _ | _, .nan => .nan
  | .infinite m, .infinite n => if m = n then .infinite m else .nan
  | .infinite m, .finite .. => .infinite m
  | .finite .., .infinite n => .infinite n
  | .finite m r, .finite n s =>
    let sum := signedUnits m r + signedUnits n s
    if sum = 0 then zero (m && n) else nearest (sum < 0) sum.natAbs 1

/-- The difference, rounded. -/
def sub (x y : Binary64) : Binary64 := add x (neg y)

/-- The product, rounded.  Infinity times zero is not a number. -/
def mul : Binary64 → Binary64 → Binary64
  | .nan, _ | _, .nan => .nan
  | .infinite m, .infinite n => .infinite (m != n)
  | .infinite m, .finite n r | .finite m r, .infinite n =>
    if r.val = 0 then .nan else .infinite (m != n)
  | .finite m r, .finite n s => nearest (m != n) (units r * units s) (Nat.pow 2 unitExponent)

/-- The quotient, rounded.  Zero by zero and infinity by infinity are not numbers, and any
other number by zero is infinite. -/
def div : Binary64 → Binary64 → Binary64
  | .nan, _ | _, .nan => .nan
  | .infinite _, .infinite _ => .nan
  | .infinite m, .finite n _ => .infinite (m != n)
  | .finite m _, .infinite n => zero (m != n)
  | .finite m r, .finite n s =>
    if s.val = 0 then (if r.val = 0 then .nan else .infinite (m != n))
    else nearest (m != n) (units r * Nat.pow 2 unitExponent) (units s)

/-! ### Order -/

/-- The place of a number in the order by exact value, in units of `2 ^ -1074`; what is not
a number has none.  The two zeros share a place, and the infinities are beyond every
finite number. -/
def place? : Binary64 → Option Int
  | .nan => none
  | .finite negative rank => some (signedUnits negative rank)
  | .infinite negative => some (signedUnits negative rankCount)

/-- Whether both have a place and the first comes before the second. -/
def lt (x y : Binary64) : Bool :=
  match x.place?, y.place? with
  | some a, some b => a < b
  | _, _ => false

/-- Whether both have a place and the second does not come before the first. -/
def le (x y : Binary64) : Bool :=
  match x.place?, y.place? with
  | some a, some b => a ≤ b
  | _, _ => false

/-- Whether both have the same place: zeros of either sign agree, and what is not a number
agrees with nothing. -/
def agrees (x y : Binary64) : Bool :=
  match x.place?, y.place? with
  | some a, some b => a = b
  | _, _ => false

/-- Whether the number is a zero of either sign. -/
def isZero : Binary64 → Bool
  | .finite _ rank => rank.val = 0
  | _ => false

end MiniLisp.Binary64
