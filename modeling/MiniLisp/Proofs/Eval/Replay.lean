/-
# Replaying a trace

All that an evaluation does to the store is in its trace: a scope is made by an application, a
name is bound by a definition, and nothing else changes.  So from the trace one knows, at each
event, the store that it happened in and the scopes that were made by then.

Evaluation in a linked store keeps it linked, and each event is linked when it happens: code is
evaluated in a scope that was made, definitions bind values that capture scopes that were made,
and a closure that is applied gets a new scope within the one that it captured, which no other
scope leads to.
-/
import MiniLisp.Proofs.Eval.Closed
import MiniLisp.Proofs.Scope.Links

namespace MiniLisp

/-! ### Replaying -/

/-- The store after an event. -/
def Store.after (σ : Store) : Event → Store
  | .visited .. => σ
  | .entered parameters _ arguments scope =>
    match scope with
    | .root _ => σ
    | .inner _ captured => (σ.enter parameters arguments captured).2
  | .parameterDefined name v scope => σ.set scope name v
  | .functionDefined name parameters body scope =>
    let (closure, σ) := σ.newClosure parameters body scope
    σ.set scope name closure

/-- The store after events, one after another. -/
def Store.replay (σ : Store) (events : List Event) : Store := events.foldl Store.after σ

lemma Store.replay_concat (σ : Store) (events : List Event) (e : Event) :
    σ.replay (events ++ [e]) = (σ.replay events).after e := by
  rw [replay, List.foldl_append]
  rfl

/-- The scope that an event makes, if it makes one. -/
def Event.entered? : Event → Option Scope
  | .entered _ _ _ scope => some scope
  | _ => none

/-- The scopes that were made after some events. -/
def scopesAfter (made : List Scope) (past : List Event) : List Scope :=
  made ++ past.filterMap Event.entered?

lemma scopesAfter_concat (made : List Scope) (past : List Event) (e : Event) :
    scopesAfter made (past ++ [e]) = scopesAfter made past ++ e.entered?.toList := by
  rw [scopesAfter, scopesAfter, List.filterMap_append, List.append_assoc]
  cases h : e.entered? <;> simp [h]

lemma scopesAfter_subset (made : List Scope) (past more : List Event) :
    scopesAfter made past ⊆ scopesAfter made (past ++ more) := by
  rw [scopesAfter, scopesAfter, List.filterMap_append, ← List.append_assoc]
  exact List.subset_append_left _ _

/-! ### Linked events -/

/-- What has to be so when an event happens in a store, after some scopes were made. -/
def Event.IsLinked (made : List Scope) (σ : Store) : Event → Prop
  | .visited code scope => scope ∈ made ∧ code.CapturesFrom made
  | .entered parameters body arguments scope =>
    body.CapturesFrom made ∧ (∀ v ∈ arguments, v.CapturesFrom made) ∧
      ∃ captured ∈ made, scope = .inner made.length captured ∧
        ∀ other ∈ made, ¬ (σ.enter parameters arguments captured).2.Leads other scope
  | .parameterDefined _ v scope => scope ∈ made ∧ v.CapturesFrom made
  | .functionDefined _ _ body scope => scope ∈ made ∧ body.CapturesFrom made

/-- Events lead from one store to another, which is linked, and each of them was linked when it
happened. -/
structure Store.StaysLinked (σ₀ : Store) (made : List Scope) (past : List Event)
    (σ : Store) : Prop where
  replay_eq : σ₀.replay past = σ
  linked : σ.IsLinked (scopesAfter made past)
  events : ∀ before e after, past = before ++ e :: after →
    e.IsLinked (scopesAfter made before) (σ₀.replay before)

/-- Before anything happens. -/
lemma Store.IsLinked.staysLinked_nil {σ : Store} {made : List Scope} (h : σ.IsLinked made) :
    σ.StaysLinked made [] σ where
  replay_eq := rfl
  linked := by rwa [scopesAfter, List.filterMap_nil, List.append_nil]
  events := fun _ _ _ heq => by simp at heq

/-- One more event, if it is linked and the store that it leads to is. -/
lemma Store.StaysLinked.concat {σ₀ σ : Store} {made : List Scope} {past : List Event}
    (h : σ₀.StaysLinked made past σ) {e : Event} (he : e.IsLinked (scopesAfter made past) σ)
    (hlinked : (σ.after e).IsLinked (scopesAfter made past ++ e.entered?.toList)) :
    σ₀.StaysLinked made (past ++ [e]) (σ.after e) where
  replay_eq := by rw [replay_concat, h.replay_eq]
  linked := by rwa [scopesAfter_concat]
  events := forall_events_concat h.events (by rwa [h.replay_eq])

/-- One more event that makes no scope. -/
lemma Store.StaysLinked.concat_of_entered?_eq_none {σ₀ σ : Store} {made : List Scope}
    {past : List Event} (h : σ₀.StaysLinked made past σ) {e : Event} (hnone : e.entered? = none)
    (he : e.IsLinked (scopesAfter made past) σ)
    (hlinked : (σ.after e).IsLinked (scopesAfter made past)) :
    σ₀.StaysLinked made (past ++ [e]) (σ.after e) :=
  h.concat he (by rwa [hnone, Option.toList_none, List.append_nil])

/-! ### Evaluation -/

/-- That stores stay linked. -/
def Invariant.linked (σ₀ : Store) (made : List Scope) : Invariant where
  store past σ := σ₀.StaysLinked made past σ
  code past scope c := scope ∈ scopesAfter made past ∧ c.CapturesFrom (scopesAfter made past)
  value past v := v.CapturesFrom (scopesAfter made past)
  code_append more h :=
    ⟨scopesAfter_subset _ _ more h.1, h.2.mono (scopesAfter_subset _ _ more)⟩
  value_append more h := h.mono (scopesAfter_subset _ _ more)
  code_parts := by
    rintro past scope c part ⟨hscope, hcode⟩ hpart
    obtain ⟨items, rfl, hmem⟩ := Value.exists_list_of_mem_parts hpart
    exact ⟨hscope, Value.capturesFrom_list.1 hcode part hmem⟩
  value_plain _ h := Value.capturesFrom_of_closures_eq_nil (Value.closures_of_isPlain h)
  value_self h _ := h.2
  value_quoted h := Value.capturesFrom_list.1 h.2 _ (by simp)
  value_lookup h _ hv := h.linked.captures.of_lookup? hv
  store_visited h hcode := h.concat_of_entered?_eq_none rfl hcode h.linked
  store_parameter h hcode hv :=
    h.concat_of_entered?_eq_none rfl ⟨hcode.1, hv⟩ (h.linked.set hv _ _)
  store_function := by
    rintro past σ scope name parameters body h ⟨hscope, hcode⟩
    have hbody : body.CapturesFrom (scopesAfter made past) :=
      Value.capturesFrom_list.1 hcode body (by simp)
    have hclosure : (σ.newClosure parameters body scope).1.CapturesFrom (scopesAfter made past) :=
      Value.capturesFrom_closure.2 ⟨hscope, hbody⟩
    exact h.concat_of_entered?_eq_none rfl ⟨hscope, hbody⟩
      ((h.linked.newClosure parameters body scope).set hclosure scope name)
  store_entered := by
    intro past σ stamp parameters body captured arguments h hf hargs
    obtain ⟨hcaptured, hbody⟩ := Value.capturesFrom_closure.1 hf
    have hentered := h.linked.enter hcaptured hargs parameters
    have hevent : Event.IsLinked (scopesAfter made past) σ
        (.entered parameters body arguments (σ.enter parameters arguments captured).1) :=
      ⟨hbody, hargs, captured, hcaptured, h.linked.enter_fst_eq parameters arguments captured,
        fun _ => h.linked.not_leads_enter hargs parameters⟩
    exact h.concat hevent hentered
  code_entered := by
    intro past σ stamp parameters body captured arguments _ hf _
    obtain ⟨-, hbody⟩ := Value.capturesFrom_closure.1 hf
    refine ⟨?_, hbody.mono (scopesAfter_subset _ _ _)⟩
    rw [scopesAfter_concat]
    exact List.mem_append_right _ (List.mem_singleton.2 rfl)

/-- **Evaluation keeps stores linked.**  If the scope that code is evaluated in was made and the
code captures what was made, then the run leaves the linked store that its trace leads to,
whether it gives a value or fails, all events were linked when they happened, and the value
captures what was made by then. -/
theorem Store.IsLinked.evaluate {σ : Store} {made : List Scope} (h : σ.IsLinked made)
    {scope : Scope} {code : Value} (hscope : scope ∈ made) (hcode : code.CapturesFrom made)
    (depth : Nat) :
    let run := MiniLisp.evaluate depth scope code σ
    σ.StaysLinked made run.trace run.store ∧
      ∀ v, run.result = .ok v → v.CapturesFrom (scopesAfter made run.trace) := by
  exact (Invariant.linked σ made).respects_evaluate depth [] scope code
    ⟨List.mem_append_left _ hscope, hcode.mono (List.subset_append_left _ _)⟩ σ h.staysLinked_nil

end MiniLisp
