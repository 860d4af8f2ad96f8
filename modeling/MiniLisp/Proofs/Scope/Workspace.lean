/-
# Work on scopes

What can be done with scopes without evaluating anything: a scope is made, as a root or within
another one, and names are bound in a scope, one at a time, or all those of a mapping, or those
that are bound from the start.  A workspace is what such operations have led to: the store, and
the scopes made so far.  Operations need scopes that were made.
-/
import MiniLisp.Proofs.Scope.Lineage
import MiniLisp.Proofs.Scope.Record

namespace MiniLisp

/-- Something that is done with scopes. -/
inductive Operation where
  /-- A scope is made, within another one or as a root. -/
  | make (outer : Option Scope)
  /-- A name is bound. -/
  | set (scope : Scope) (name : String) (value : Value)
  /-- All names of a mapping are bound. -/
  | update (scope : Scope) (mapping : Frame)
  /-- The names that are bound from the start are bound. -/
  | register (scope : Scope)

namespace Operation

/-- The scope that an operation binds names in. -/
def target? : Operation → Option Scope
  | .make _ => none
  | .set scope _ _ | .update scope _ | .register scope => some scope

/-- The scopes that an operation needs. -/
def needs : Operation → List Scope
  | .make outer => outer.toList
  | .set scope _ _ | .update scope _ | .register scope => [scope]

/-- What an operation writes to its scope, in order. -/
def bindings : Operation → List (String × Value)
  | .make _ => []
  | .set _ name value => [(name, value)]
  | .update _ mapping => mapping.bindings
  | .register _ => Frame.builtins.bindings

/-- What an operation writes to a scope, in order. -/
def writesTo (scope : Scope) (operation : Operation) : List (String × Value) :=
  if operation.target? = some scope then operation.bindings else []

/-- An operation makes a scope or binds names in one. -/
lemma make_or_target (operation : Operation) :
    (∃ outer, operation = .make outer) ∨ ∃ target, operation.target? = some target := by
  cases operation with
  | make outer => exact Or.inl ⟨outer, rfl⟩
  | set scope name value => exact Or.inr ⟨scope, rfl⟩
  | update scope mapping => exact Or.inr ⟨scope, rfl⟩
  | register scope => exact Or.inr ⟨scope, rfl⟩

/-- An operation needs the scope that it binds names in. -/
lemma mem_needs_of_target? {operation : Operation} {target : Scope}
    (h : operation.target? = some target) : target ∈ operation.needs := by
  cases operation with
  | make outer => cases h
  | set scope name value => exact List.mem_singleton.2 (Option.some.inj h).symm
  | update scope mapping => exact List.mem_singleton.2 (Option.some.inj h).symm
  | register scope => exact List.mem_singleton.2 (Option.some.inj h).symm

end Operation

/-- The writes to a scope that operations make one after another. -/
def writtenTo (operations : List Operation) (scope : Scope) : List (String × Value) :=
  operations.flatMap (·.writesTo scope)

/-- A store with the scopes that were made in it. -/
structure Workspace where
  store : Store
  /-- The scopes in the order in which they were made. -/
  scopes : List Scope

namespace Workspace

/-- The workspace without scopes. -/
def empty : Workspace := ⟨.empty, []⟩

/-- The workspace after an operation. -/
def perform (w : Workspace) : Operation → Workspace
  | .make outer =>
    let (scope, σ) := w.store.newScope outer
    ⟨σ, w.scopes ++ [scope]⟩
  | .set scope name value => { w with store := w.store.set scope name value }
  | .update scope mapping => { w with store := w.store.update scope mapping }
  | .register scope => { w with store := w.store.register scope }

/-- The workspace after operations, one after another. -/
def performAll (w : Workspace) : List Operation → Workspace
  | [] => w
  | operation :: rest => (w.perform operation).performAll rest

/-- The scopes that an operation needs were made. -/
def Allows (w : Workspace) (operation : Operation) : Prop :=
  ∀ scope ∈ operation.needs, scope ∈ w.scopes

/-- The scopes that each operation needs were made before. -/
def AllowsAll (w : Workspace) : List Operation → Prop
  | [] => True
  | operation :: rest => w.Allows operation ∧ (w.perform operation).AllowsAll rest

instance (w : Workspace) (operation : Operation) : Decidable (w.Allows operation) :=
  inferInstanceAs (Decidable (∀ scope ∈ operation.needs, scope ∈ w.scopes))

instance decidableAllowsAll (w : Workspace) :
    ∀ operations, Decidable (w.AllowsAll operations)
  | [] => inferInstanceAs (Decidable True)
  | operation :: rest =>
    have := decidableAllowsAll (w.perform operation) rest
    inferInstanceAs (Decidable (_ ∧ _))

/-- To bind names is to write them one after another. -/
lemma perform_of_target? (w : Workspace) {operation : Operation} {target : Scope}
    (h : operation.target? = some target) :
    w.perform operation = ⟨w.store.setAll target operation.bindings, w.scopes⟩ := by
  cases operation with
  | make outer => cases h
  | set scope name value =>
    cases h
    rfl
  | update scope mapping =>
    cases h
    rfl
  | register scope =>
    cases h
    rfl

/-- The scopes of a workspace are those of its store. -/
lemma holds_perform {w : Workspace} (h : w.store.Holds w.scopes) {operation : Operation}
    (hallows : w.Allows operation) :
    (w.perform operation).store.Holds (w.perform operation).scopes := by
  rcases operation.make_or_target with ⟨outer, rfl⟩ | ⟨target, htarget⟩
  · exact h.grow fun scope hscope => hallows scope (Option.mem_toList.2 hscope)
  · rw [perform_of_target? w htarget]
    exact h.setAll target _

end Workspace

end MiniLisp
