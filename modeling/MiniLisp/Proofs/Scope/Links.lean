/-
# Linked stores

A scope leads to the scope outside it and, through the closures in the values that it binds, to
the scopes that these captured, and so on from there; a scope that binds a closure over itself
leads to itself.  A store is linked if all that its bindings capture was made.  Then whatever
the scopes that were made lead to was made as well, and a scope that is new is led to by none
of them.
-/
import MiniLisp.Proofs.Scope.Lineage
import MiniLisp.Proofs.Value.Relabel

namespace MiniLisp

/-! ### What is captured -/

/-- All closures that occur in a value, also in lists and in code, capture one of some scopes. -/
def Value.CapturesFrom (made : List Scope) (v : Value) : Prop := ∀ c ∈ v.closures, c.2 ∈ made

instance (made : List Scope) (v : Value) : Decidable (v.CapturesFrom made) :=
  inferInstanceAs (Decidable (∀ c ∈ v.closures, c.2 ∈ made))

namespace Value

variable {made later : List Scope} {v : Value}

lemma CapturesFrom.mono (h : v.CapturesFrom made) (hsub : made ⊆ later) :
    v.CapturesFrom later :=
  fun c hc => hsub (h c hc)

lemma capturesFrom_of_closures_eq_nil (h : v.closures = []) : v.CapturesFrom made := by
  intro c hc
  rw [h] at hc
  cases hc

lemma capturesFrom_list {items : List Value} :
    CapturesFrom made (.list items) ↔ ∀ v ∈ items, v.CapturesFrom made :=
  forall_closures_list

lemma capturesFrom_closure {stamp : Nat} {parameters : List String} {body : Value}
    {scope : Scope} :
    CapturesFrom made (.closure stamp parameters body scope) ↔
      scope ∈ made ∧ body.CapturesFrom made :=
  forall_closures_closure

end Value

namespace Store

variable {σ : Store} {made : List Scope}

/-! ### Ways from scope to scope -/

/-- From a scope one gets to another one, outwards and through what is bound. -/
inductive Leads (σ : Store) : Scope → Scope → Prop
  | here (scope : Scope) : Leads σ scope scope
  | outwards {id : FrameId} {outer target : Scope} (hrest : Leads σ outer target) :
    Leads σ (.inner id outer) target
  | through {scope target : Scope} {binding : String × Value} {c : Nat × Scope}
    (hbinding : binding ∈ (σ.frame scope.frame).bindings) (hc : c ∈ binding.2.closures)
    (hrest : Leads σ c.2 target) : Leads σ scope target

/-- If all that is bound captures scopes that were made, no way leads from these to another
scope. -/
lemma Leads.mem {scope target : Scope} (h : σ.Leads scope target) (hmade : IsLineage made)
    (hbinds : σ.Binds (·.CapturesFrom made)) (hscope : scope ∈ made) : target ∈ made := by
  induction h with
  | here scope => exact hscope
  | outwards _ ih => exact ih (hmade.outer_older hscope rfl).1
  | through hbinding hc _ ih => exact ih (hbinds _ _ hbinding _ hc)

/-! ### Linked stores -/

/-- The frames are those of the scopes that were made, and what is bound captures these. -/
structure IsLinked (made : List Scope) (σ : Store) : Prop where
  holds : σ.Holds made
  captures : σ.Binds (·.CapturesFrom made)

lemma isLinked_empty : empty.IsLinked [] := ⟨holds_empty, binds_empty _⟩

namespace IsLinked

variable (h : σ.IsLinked made)

include h

lemma grow {outer : Option Scope} (houter : ∀ scope ∈ outer, scope ∈ made) :
    σ.grow.IsLinked (made ++ [σ.nextScope outer]) where
  holds := h.holds.grow houter
  captures := h.captures.grow.mono fun _ hv => hv.mono (List.subset_append_left _ _)

lemma setAll {writes : List (String × Value)}
    (hwrites : ∀ write ∈ writes, write.2.CapturesFrom made) (scope : Scope) :
    (σ.setAll scope writes).IsLinked made :=
  ⟨h.holds.setAll scope writes, h.captures.setAll hwrites scope⟩

lemma set {v : Value} (hv : v.CapturesFrom made) (scope : Scope) (name : String) :
    (σ.set scope name v).IsLinked made :=
  ⟨h.holds.setAll scope [(name, v)], h.captures.set hv scope name⟩

lemma newClosure (parameters : List String) (body : Value) (scope : Scope) :
    (σ.newClosure parameters body scope).2.IsLinked made :=
  ⟨⟨h.holds.lineage, h.holds.size_eq⟩, h.captures.newClosure parameters body scope⟩

/-- The scope of an applied closure is new, within the one that was captured. -/
lemma enter_fst_eq (parameters : List String) (arguments : List Value) (captured : Scope) :
    (σ.enter parameters arguments captured).1 = .inner made.length captured := by
  rw [enter_fst, h.holds.size_eq]

variable {captured : Scope} {arguments : List Value}

lemma enter (hcaptured : captured ∈ made) (harguments : ∀ v ∈ arguments, v.CapturesFrom made)
    (parameters : List String) :
    (σ.enter parameters arguments captured).2.IsLinked
      (made ++ [(σ.enter parameters arguments captured).1]) := by
  have hgrow : σ.grow.IsLinked (made ++ [σ.nextScope (some captured)]) :=
    h.grow fun scope hscope => Option.some.inj hscope ▸ hcaptured
  refine hgrow.setAll (fun write hwrite => ?_) _
  exact (harguments _ (List.of_mem_zip hwrite).2).mono (List.subset_append_left _ _)

/-- No scope that was made leads to the scope of an applied closure. -/
lemma not_leads_enter (harguments : ∀ v ∈ arguments, v.CapturesFrom made)
    (parameters : List String) {other : Scope} (hother : other ∈ made) :
    ¬ (σ.enter parameters arguments captured).2.Leads other
      (σ.enter parameters arguments captured).1 := fun hleads =>
  h.holds.nextScope_notMem (some captured) <|
    hleads.mem h.holds.lineage (h.captures.enter harguments parameters captured) hother

end IsLinked

end Store

end MiniLisp
