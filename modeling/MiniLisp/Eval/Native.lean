/-
# Native functions

Each native function checks its arguments in one order: first how many there are, then from
left to right whether they are numbers, and division last whether a divisor is zero.  Only
then it computes, from left to right.
-/
import MiniLisp.Binary64.Arithmetic
import MiniLisp.Eval.Error

namespace MiniLisp.Native

/-- The number that an argument has to be. -/
def numberOf (v : Value) : Except EvalError Binary64 :=
  match v with
  | .number x => .ok x
  | v => .error (.about .notNumber v)

/-- The numbers that all arguments have to be; the leftmost one that is not is the error. -/
def numbersOf : List Value → Except EvalError (List Binary64)
  | [] => .ok []
  | v :: vs => do
    let x ← numberOf v
    let xs ← numbersOf vs
    pure (x :: xs)

/-- The first argument and the others, as numbers, for a function that needs one at least. -/
def operandsOf (f : Native) : List Value → Except EvalError (Binary64 × List Binary64)
  | [] => .error (.nativeArity f)
  | v :: vs => do
    let x ← numberOf v
    let xs ← numbersOf vs
    pure (x, xs)

/-! ### Computing -/

/-- The sum, from zero. -/
def sum (xs : List Binary64) : Binary64 := xs.foldl Binary64.add (.zero false)

/-- The first number less the others; a number alone is negated. -/
def difference (x : Binary64) : List Binary64 → Binary64
  | [] => x.neg
  | y :: ys => (y :: ys).foldl Binary64.sub x

/-- The product. -/
def product (x : Binary64) (xs : List Binary64) : Binary64 := xs.foldl Binary64.mul x

/-- The first number divided by the others, none of which may be zero. -/
def quotient (x : Binary64) (ys : List Binary64) : Except EvalError Binary64 :=
  if ys.any Binary64.isZero then .error .divisionByZero else .ok (ys.foldl Binary64.div x)

/-- Whether each number stands in a relation to the next. -/
def isChain (related : Binary64 → Binary64 → Bool) (x : Binary64) : List Binary64 → Bool
  | [] => true
  | y :: ys => related x y && isChain related y ys

/-! ### Applying -/

/-- The value of a native function for some arguments. -/
def apply (f : Native) (arguments : List Value) : Except EvalError Value :=
  match f with
  | .add => do
    let xs ← numbersOf arguments
    pure (.number (sum xs))
  | .sub => do
    let (x, xs) ← operandsOf f arguments
    pure (.number (difference x xs))
  | .mul => do
    let (x, xs) ← operandsOf f arguments
    pure (.number (product x xs))
  | .div => do
    let (x, xs) ← operandsOf f arguments
    let y ← quotient x xs
    pure (.number y)
  | .lt => do
    let (x, xs) ← operandsOf f arguments
    pure (.ofBool (isChain Binary64.lt x xs))
  | .le => do
    let (x, xs) ← operandsOf f arguments
    pure (.ofBool (isChain Binary64.le x xs))
  | .numberp =>
    match arguments with
    | [v] => .ok (.ofBool v.number?.isSome)
    | _ => .error (.nativeArity f)

end MiniLisp.Native
