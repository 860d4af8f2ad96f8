/-
# The names that are bound from the start
-/
import MiniLisp.Scope.Store

namespace MiniLisp

/-- The name that a native function is bound to. -/
def Native.name : Native → String
  | .add => "+"
  | .sub => "-"
  | .mul => "*"
  | .div => "/"
  | .lt => "<"
  | .le => "<="
  | .numberp => "numberp"

/-- The bindings of a root scope from the start, in their order: the true value and the native
functions. -/
def Frame.builtins : Frame :=
  .ofList (("t", .t) ::
    [Native.add, .sub, .mul, .div, .lt, .le, .numberp].map fun f => (f.name, .native f))

/-- Binds the names that are bound from the start. -/
def Store.register (σ : Store) (scope : Scope) : Store := σ.update scope .builtins

/-- Makes a root scope with the names that are bound from the start. -/
def Store.newDefault (σ : Store) : Scope × Store :=
  let (scope, σ) := σ.newScope none
  (scope, σ.register scope)

/-- Whether a value is the one that a name is bound to from the start. -/
def Frame.isBuiltin (name : String) (value : Value) : Bool :=
  match builtins.get? name, value with
  | some .t, .t => true
  | some (.native f), .native g => f = g
  | _, _ => false

end MiniLisp
