/-
# Where code stands and where it is evaluated

Code stands in a line within some function definitions, one in the body of the next; and it
is evaluated in a scope, a chain of frames above the root.  A scope mirrors the definitions
if its frames were made, one for one, by applying functions that these definitions made.
-/
import MiniLisp.Proofs.Eval.Shape
import MiniLisp.Proofs.Value.Occurs

namespace MiniLisp

/-- A function definition. -/
structure Definition where
  name : String
  parameters : List String
  body : Value

/-- The definition as code. -/
def Definition.code (d : Definition) : Value := definitionCode d.name d.parameters d.body

/-! ### Standing in a line -/

/-- Where some code stands in a line: in an evaluated position of the line itself or of the
body of a definition that stands in the line.  The list holds the definitions around the
code, the innermost first. -/
inductive Within (line : Value) : List Definition → Value → Prop
  /-- The line stands in itself. -/
  | line : Within line [] line
  /-- What is evaluated with code stands where the code stands. -/
  | part {nest : List Definition} {code part : Value} (h : Within line nest code)
    (hpart : part ∈ code.parts) : Within line nest part
  /-- The body of a definition stands one definition further in. -/
  | body {nest : List Definition} {d : Definition} (h : Within line nest d.code) :
    Within line (d :: nest) d.body

/-- The code that is evaluated in one scope together with the code within some definitions:
the body of the innermost one, or the whole line. -/
def unitOf (line : Value) : List Definition → Value
  | [] => line
  | d :: _ => d.body

lemma occurs_of_mem_parts {code part : Value} (h : part ∈ code.parts) : part.Occurs code := by
  rcases Value.mem_parts h with ⟨head, operands, -, rfl, hmem⟩ | ⟨operands, rfl, hmem⟩ |
    ⟨target, rfl⟩
  · exact .item hmem .refl
  · exact .item (List.mem_cons_of_mem _ hmem) .refl
  · exact .item (by simp) .refl

lemma Definition.body_occurs_code (d : Definition) : d.body.Occurs d.code := by
  show d.body.Occurs (.list [_, _, _, d.body])
  exact .item (by simp) .refl

namespace Within

variable {line code : Value} {nest : List Definition}

/-- What stands in a line is a part of the line. -/
lemma occurs (h : Within line nest code) : code.Occurs line := by
  induction h with
  | line => exact .refl
  | part _ hpart ih => exact (occurs_of_mem_parts hpart).trans ih
  | body _ ih => exact (Definition.body_occurs_code _).trans ih

/-- The names that code defines are defined by the body around it. -/
lemma defined_subset (h : Within line nest code) :
    code.defined ⊆ (unitOf line nest).defined := by
  induction h with
  | line => exact List.Subset.refl _
  | part _ hpart ih => exact List.Subset.trans (Value.defined_subset_of_mem_parts hpart) ih
  | body => exact List.Subset.refl _

end Within

/-! ### Scopes -/

/-- A scope above the root has, after some events, one frame for each of some definitions,
the innermost first: a function that the definition made was applied, and the frame was
made within the scope that the definition was evaluated in. -/
inductive Mirrors (past : List Event) (root : Scope) : Scope → List Definition → Prop
  | root : Mirrors past root root []
  | inner {frame : FrameId} {outer : Scope} {d : Definition} {nest : List Definition}
    {arguments : List Value}
    (hdefined : .functionDefined d.name d.parameters d.body outer ∈ past)
    (hentered : .entered d.parameters d.body arguments (.inner frame outer) ∈ past)
    (houter : Mirrors past root outer nest) : Mirrors past root (.inner frame outer) (d :: nest)

namespace Mirrors

variable {past later : List Event} {root scope : Scope} {nest : List Definition}

lemma mono (h : Mirrors past root scope nest) (hsub : past ⊆ later) :
    Mirrors later root scope nest := by
  induction h with
  | root => exact .root
  | inner hdefined hentered _ ih => exact .inner (hsub hdefined) (hsub hentered) ih

/-- The chain is as long as the definitions are nested. -/
lemma length_frames (h : Mirrors past root scope nest) :
    scope.frames.length = nest.length + root.frames.length := by
  induction h with
  | root => rw [List.length_nil, Nat.zero_add]
  | inner _ _ _ ih => rw [Scope.frames, List.length_cons, List.length_cons, ih, Nat.add_right_comm]

/-- The root mirrors code outside all definitions, and nothing else does. -/
lemma eq_root_iff (h : Mirrors past root scope nest) : scope = root ↔ nest = [] := by
  constructor
  · rintro rfl
    exact List.eq_nil_of_length_eq_zero (Nat.left_eq_add.1 (Nat.add_comm _ _ ▸ h.length_frames))
  · rintro rfl
    cases h
    rfl

end Mirrors

end MiniLisp
