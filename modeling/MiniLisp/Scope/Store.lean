/-
# The store of frames

All frames that were ever made, by their places.  A scope leads to its bindings through the
store: a name means what the innermost frame of the scope that has it says.  Binding always
writes to the frame of the scope itself, so it may hide a binding further out but never
changes one.
-/
import MiniLisp.Scope.Frame

namespace MiniLisp

/-- The frames made so far, and the number of closures made so far. -/
structure Store where
  /-- The frames by their places. -/
  frames : Array Frame
  /-- The stamp of the next closure. -/
  stamps : Nat

namespace Store

/-- The store without frames. -/
def empty : Store := ⟨#[], 0⟩

/-- The frame at a place; where none was made it is empty. -/
def frame (σ : Store) (id : FrameId) : Frame := σ.frames[id]?.getD .empty

/-! ### Making scopes -/

/-- The store with one more frame, which is empty. -/
def grow (σ : Store) : Store := { σ with frames := σ.frames.push .empty }

/-- The scope whose frame is made next, within another one or as a root. -/
def nextScope (σ : Store) : Option Scope → Scope
  | none => .root σ.frames.size
  | some outer => .inner σ.frames.size outer

/-- Makes a scope with an empty frame. -/
def newScope (σ : Store) (outer : Option Scope) : Scope × Store := (σ.nextScope outer, σ.grow)

/-! ### Looking names up -/

/-- The innermost scope of a chain that has a binding for a name. -/
def find? (σ : Store) : Scope → String → Option Scope
  | .root id, name => if (σ.frame id).contains name then some (.root id) else none
  | .inner id outer, name =>
    if (σ.frame id).contains name then some (.inner id outer) else find? σ outer name

/-- What a name means in a scope. -/
def lookup? (σ : Store) (scope : Scope) (name : String) : Option Value :=
  (σ.find? scope name).bind fun owner => (σ.frame owner.frame).get? name

/-- What a name means in a scope, or the foreign value if it means nothing. -/
def get (σ : Store) (scope : Scope) (name : String) : Value :=
  (σ.lookup? scope name).getD .foreign

/-! ### Binding names -/

/-- Binds a name in the frame of a scope. -/
def set (σ : Store) (scope : Scope) (name : String) (value : Value) : Store :=
  { σ with frames := σ.frames.modify scope.frame (·.insert name value) }

/-- Binds names in the frame of a scope, one after another. -/
def setAll (σ : Store) (scope : Scope) : List (String × Value) → Store
  | [] => σ
  | (name, value) :: rest => (σ.set scope name value).setAll scope rest

/-- Binds all names of a mapping in the frame of a scope. -/
def update (σ : Store) (scope : Scope) (mapping : Frame) : Store :=
  σ.setAll scope mapping.bindings

/-! ### Closures -/

/-- Makes a closure over a scope. -/
def newClosure (σ : Store) (parameters : List String) (body : Value) (scope : Scope) :
    Value × Store :=
  (.closure σ.stamps parameters body scope, { σ with stamps := σ.stamps + 1 })

/-- Makes the scope that the body of a closure is evaluated in: within the scope that the
closure was made in, with parameters bound to arguments one by one.  Arguments without a
parameter are dropped and parameters without an argument stay unbound. -/
def enter (σ : Store) (parameters : List String) (arguments : List Value) (captured : Scope) :
    Scope × Store :=
  let (scope, σ) := σ.newScope (some captured)
  (scope, σ.setAll scope (parameters.zip arguments))

/-! ### How binding and looking up agree -/

theorem lookup?_root (σ : Store) (id : FrameId) (name : String) :
    σ.lookup? (.root id) name = (σ.frame id).get? name := by
  unfold lookup? find?
  cases h : (σ.frame id).get? name <;> simp [Frame.contains, h]

theorem lookup?_inner (σ : Store) (id : FrameId) (outer : Scope) (name : String) :
    σ.lookup? (.inner id outer) name = ((σ.frame id).get? name).or (σ.lookup? outer name) := by
  unfold lookup?
  rw [find?]
  cases h : (σ.frame id).get? name <;> simp [Frame.contains, h]

theorem lookup?_eq_none_iff (σ : Store) (scope : Scope) (name : String) :
    σ.lookup? scope name = none ↔ σ.find? scope name = none := by
  induction scope with
  | root id =>
    rw [lookup?_root, find?]
    cases h : (σ.frame id).get? name <;> simp [Frame.contains, h]
  | inner id outer ih =>
    rw [lookup?_inner, find?]
    cases h : (σ.frame id).get? name <;> simp [Frame.contains, h, ih]

theorem frame_grow (σ : Store) (id : FrameId) : σ.grow.frame id = σ.frame id := by
  unfold frame grow
  rcases Nat.lt_trichotomy id σ.frames.size with h | h | h
  · simp [Array.getElem?_push, Nat.ne_of_lt h]
  · subst h
    simp
  · simp [Array.getElem?_push, Nat.ne_of_gt h]

theorem frame_set {σ : Store} {scope : Scope} (h : scope.frame < σ.frames.size)
    (name : String) (value : Value) (id : FrameId) :
    (σ.set scope name value).frame id =
      if id = scope.frame then (σ.frame id).insert name value else σ.frame id := by
  unfold frame set
  by_cases hid : scope.frame = id
  · subst hid
    rw [if_pos rfl, Array.getElem?_modify, if_pos rfl, Array.getElem?_eq_getElem h]
    rfl
  · rw [if_neg (Ne.symm hid), Array.getElem?_modify, if_neg hid]

end Store

end MiniLisp
