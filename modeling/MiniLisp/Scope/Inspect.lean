/-
# The inspected form of a scope

A frame is shown as its bindings between braces, and a scope either as its own frame with
an arrow if more is outside, or as the frames of the whole chain.
-/
import MiniLisp.Scope.Store
import MiniLisp.Value.Inspect

namespace MiniLisp

/-- A frame with its bindings in order. -/
def Frame.inspect (frame : Frame) : String :=
  "\x7b" ++ ", ".intercalate (frame.bindings.map fun (name, value) => name ++ ": " ++ value.inspect)
    ++ "\x7d"

/-- The frame of a scope, with an arrow if the scope is within another one. -/
def Store.inspectScope (σ : Store) (scope : Scope) : String :=
  (σ.frame scope.frame).inspect ++ (if scope.outer?.isSome then " -> ..." else "")

/-- The frames of a scope, the innermost first. -/
def Store.inspectChain (σ : Store) (scope : Scope) : String :=
  "<Environment chain: " ++
    " -> ".intercalate (scope.frames.map fun id => (σ.frame id).inspect) ++ ">"

end MiniLisp
