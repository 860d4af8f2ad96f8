/-
# Scopes

A scope is where names are looked up: a frame of bindings of its own and, unless it is a
root, the scope outside it.  Frames are kept in a store and a scope holds their places
only, so a scope never changes and is never part of a cycle, while the bindings that it
leads to may come and go.
-/

namespace MiniLisp

/-- The place of a frame in the store. -/
abbrev FrameId := Nat

/-- A chain of frames, the innermost first. -/
inductive Scope where
  /-- A scope with no other outside it. -/
  | root (frame : FrameId)
  /-- A scope within another one. -/
  | inner (frame : FrameId) (outer : Scope)
deriving DecidableEq, Repr

namespace Scope

/-- The frame of the scope itself; bindings are made in it. -/
def frame : Scope → FrameId
  | .root frame => frame
  | .inner frame _ => frame

/-- The scope outside a scope. -/
def outer? : Scope → Option Scope
  | .root _ => none
  | .inner _ outer => some outer

/-- The frames of a scope, the innermost first. -/
def frames : Scope → List FrameId
  | .root frame => [frame]
  | .inner frame outer => frame :: outer.frames

/-- The scope itself and all scopes outside it, the innermost first. -/
def chain : Scope → List Scope
  | .root frame => [.root frame]
  | .inner frame outer => .inner frame outer :: outer.chain

@[simp] theorem frame_root (frame : FrameId) : (root frame).frame = frame := rfl

@[simp] theorem frame_inner (frame : FrameId) (outer : Scope) :
    (inner frame outer).frame = frame := rfl

theorem frames_eq_map_chain (scope : Scope) : scope.frames = scope.chain.map Scope.frame := by
  induction scope with
  | root frame => rfl
  | inner frame outer ih => simp only [frames, chain, List.map_cons, frame_inner, ih]

end Scope

end MiniLisp
