/-
# Scopes stay linked

Whatever is done in a workspace - operations on scopes, sources evaluated in any scope, also
those that fail, scopes made for closures - the scopes that were made stay a lineage, and what
is bound, evaluated and given captures scopes that were made.  One step keeps this, so any
number of steps do, and hence whoever goes outwards from a scope passes each frame once and
comes to an end, even where scopes bind closures over themselves.
-/
import MiniLisp.Proofs.Eval.Replay
import MiniLisp.Proofs.Scope.Workspace
import MiniLisp.Proofs.Session.Run
import MiniLisp.Scope.Inspect

namespace MiniLisp

/-- Something that is done in a workspace. -/
inductive Step where
  /-- An operation on scopes. -/
  | operate (operation : Operation)
  /-- A root scope is made with the names that are bound from the start. -/
  | start
  /-- The first expression of a source is read and evaluated in a scope. -/
  | answer (depth : Nat) (scope : Scope) (source : Reader.Source)
  /-- The scope is made that the body of a closure would be evaluated in. -/
  | extend (parameters : List String) (arguments : List Value) (captured : Scope)

namespace Workspace

/-- The workspace after a step. -/
def advance (w : Workspace) : Step → Workspace
  | .operate operation => w.perform operation
  | .start =>
    let (scope, σ) := w.store.newDefault
    ⟨σ, w.scopes ++ [scope]⟩
  | .answer depth scope source =>
    let answer := Answer.ofSource depth scope source w.store
    ⟨answer.store w.store, scopesAfter w.scopes answer.trace⟩
  | .extend parameters arguments captured =>
    let (scope, σ) := w.store.enter parameters arguments captured
    ⟨σ, w.scopes ++ [scope]⟩

/-- The workspace after steps, one after another. -/
def advanceAll (w : Workspace) (steps : List Step) : Workspace := steps.foldl advance w

/-- The scopes that a step needs were made, those that are captured in what it hands in among
them. -/
def Admits (w : Workspace) : Step → Prop
  | .operate operation =>
    w.Allows operation ∧ ∀ binding ∈ operation.bindings, binding.2.CapturesFrom w.scopes
  | .start => True
  | .answer _ scope _ => scope ∈ w.scopes
  | .extend _ arguments captured =>
    captured ∈ w.scopes ∧ ∀ v ∈ arguments, v.CapturesFrom w.scopes

/-- The scopes that each step needs were made before. -/
def AdmitsAll (w : Workspace) : List Step → Prop
  | [] => True
  | step :: rest => w.Admits step ∧ (w.advance step).AdmitsAll rest

instance (w : Workspace) : ∀ step, Decidable (w.Admits step)
  | .operate operation => inferInstanceAs (Decidable (w.Allows operation ∧
      ∀ binding ∈ operation.bindings, binding.2.CapturesFrom w.scopes))
  | .start => inferInstanceAs (Decidable True)
  | .answer _ scope _ => inferInstanceAs (Decidable (scope ∈ w.scopes))
  | .extend _ arguments captured => inferInstanceAs (Decidable (captured ∈ w.scopes ∧
      ∀ v ∈ arguments, v.CapturesFrom w.scopes))

instance decidableAdmitsAll (w : Workspace) : ∀ steps, Decidable (w.AdmitsAll steps)
  | [] => inferInstanceAs (Decidable True)
  | step :: rest =>
    have := decidableAdmitsAll (w.advance step) rest
    inferInstanceAs (Decidable (_ ∧ _))

/-- All that is bound in a workspace captures scopes of the workspace. -/
def IsLinked (w : Workspace) : Prop := w.store.IsLinked w.scopes

end Workspace

/-- What is read captures nothing. -/
lemma Reader.capturesFrom_of_parse {source : Source} {line : Value} {rest : Cursor}
    (h : parse source = .ok (line, rest)) (made : List Scope) : line.CapturesFrom made :=
  Value.capturesFrom_of_closures_eq_nil (Session.closures_of_isReadable (isReadable_of_parse h))

/-- Reading and evaluating a source keeps stores linked. -/
lemma Store.IsLinked.answer {σ : Store} {made : List Scope} (h : σ.IsLinked made)
    {scope : Scope} (hscope : scope ∈ made) (depth : Nat) (source : Reader.Source) :
    let answer := Answer.ofSource depth scope source σ
    (answer.store σ).IsLinked (scopesAfter made answer.trace) := by
  rw [Answer.ofSource]
  cases hread : Reader.parse source with
  | error e => exact h.staysLinked_nil.linked
  | ok read => exact (h.evaluate hscope (Reader.capturesFrom_of_parse hread made) depth).1.linked

namespace Workspace.IsLinked

variable {w : Workspace} (h : w.IsLinked)

include h

lemma operate {operation : Operation} (hadmits : w.Admits (.operate operation)) :
    (w.advance (.operate operation)).IsLinked := by
  obtain ⟨hallows, hbindings⟩ := hadmits
  rcases operation.make_or_target with ⟨outer, rfl⟩ | ⟨target, htarget⟩
  · exact h.grow fun scope hscope => hallows scope (Option.mem_toList.2 hscope)
  · rw [advance, perform_of_target? w htarget]
    exact h.setAll hbindings target

lemma start : (w.advance .start).IsLinked := by
  have hgrow : w.store.grow.IsLinked (w.scopes ++ [w.store.nextScope none]) := h.grow nofun
  refine hgrow.setAll (Frame.of_mem_builtins ?_ fun f => ?_) _
  · exact Value.capturesFrom_of_closures_eq_nil rfl
  · exact Value.capturesFrom_of_closures_eq_nil rfl

/-- One step. -/
lemma advance {step : Step} (hadmits : w.Admits step) : (w.advance step).IsLinked := by
  cases step with
  | operate operation => exact h.operate hadmits
  | start => exact h.start
  | answer depth scope source => exact Store.IsLinked.answer h hadmits depth source
  | extend parameters arguments captured =>
    exact Store.IsLinked.enter h hadmits.1 hadmits.2 parameters

/-- Any number of steps. -/
lemma advanceAll {steps : List Step} (hadmits : w.AdmitsAll steps) :
    (w.advanceAll steps).IsLinked := by
  induction steps generalizing w with
  | nil => exact h
  | cons step rest ih => exact ih (h.advance hadmits.1) hadmits.2

end Workspace.IsLinked

namespace Workspace

lemma isLinked_empty : empty.IsLinked := Store.isLinked_empty

/-- Scopes are only ever added. -/
lemma scopes_prefix_advance (w : Workspace) (step : Step) :
    w.scopes <+: (w.advance step).scopes := by
  cases step with
  | operate operation =>
    rcases operation.make_or_target with ⟨outer, rfl⟩ | ⟨target, htarget⟩
    · exact List.prefix_append _ _
    · have hscopes : (w.advance (.operate operation)).scopes = w.scopes := by
        rw [advance, perform_of_target? w htarget]
      exact hscopes.symm ▸ List.prefix_refl w.scopes
  | start => exact List.prefix_append _ _
  | answer depth scope source =>
    rw [advance, scopesAfter]
    exact List.prefix_append _ _
  | extend parameters arguments captured => exact List.prefix_append _ _

lemma scopes_prefix_advanceAll (w : Workspace) (steps : List Step) :
    w.scopes <+: (w.advanceAll steps).scopes := by
  induction steps generalizing w with
  | nil => exact List.prefix_refl _
  | cons step rest ih => exact (w.scopes_prefix_advance step).trans (ih (w.advance step))

end Workspace

/-- **Scopes stay linked.**  Whatever steps were taken in a workspace, each with scopes that were
made before:

* each scope has the frame of its place, the scope outside it was made before it, and further
  steps leave both as they are;
* all that is bound, and so all that is found, captures scopes that were made;
* when code is evaluated in one of the scopes then the trace tells which store it leaves, which
  scopes were made and what was so at each event; with these scopes all that is bound, evaluated
  and given captures scopes that were made, and a closure that is applied gets a scope that
  nothing leads to;
* the scope that a closure is applied in is a new one within the scope that it captured, and its
  body is evaluated there;
* going outwards from a scope passes each of its frames once and ends, and these are the frames
  where names are looked for and that are shown of it. -/
theorem scopes_stay_linked (steps : List Step) (h : Workspace.empty.AdmitsAll steps) :
    let w := Workspace.empty.advanceAll steps
    (w.store.frames.size = w.scopes.length ∧
      (∀ (i : Nat) (hi : i < w.scopes.length), w.scopes[i].frame = i ∧
        ∀ outer, w.scopes[i].outer? = some outer → outer ∈ w.scopes.take i) ∧
      ∀ more, w.scopes <+: (w.advanceAll more).scopes) ∧
    ((∀ id, ∀ binding ∈ (w.store.frame id).bindings, binding.2.CapturesFrom w.scopes) ∧
      ∀ scope name v, w.store.lookup? scope name = some v → v.CapturesFrom w.scopes) ∧
    ((∀ source line rest, Reader.parse source = .ok (line, rest) → line.CapturesFrom w.scopes) ∧
      ∀ depth, ∀ scope ∈ w.scopes, ∀ code, code.CapturesFrom w.scopes →
        let run := evaluate depth scope code w.store
        let made := scopesAfter w.scopes run.trace
        (∀ v, run.result = .ok v → v.CapturesFrom made) ∧
        (∀ id, ∀ binding ∈ (run.store.frame id).bindings, binding.2.CapturesFrom made) ∧
        run.store = w.store.replay run.trace ∧ run.store.frames.size = made.length ∧
        ∀ before e after, run.trace = before ++ e :: after →
          e.IsLinked (scopesAfter w.scopes before) (w.store.replay before)) ∧
    ((∀ parameters arguments, ∀ captured ∈ w.scopes, (∀ v ∈ arguments, v.CapturesFrom w.scopes) →
        let (scope, σ) := w.store.enter parameters arguments captured
        ∀ other ∈ w.scopes, ¬ σ.Leads other scope) ∧
      ∀ depth stamp parameters body captured arguments σ,
        let run := apply depth (.closure stamp parameters body captured) arguments σ
        let (scope, τ) := σ.enter parameters arguments captured
        let inside := evaluate depth scope body τ
        scope = .inner σ.frames.size captured ∧ τ.frames.size = σ.frames.size + 1 ∧
          run.trace = .entered parameters body arguments scope :: inside.trace ∧
          run.store = inside.store ∧ run.result = inside.result) ∧
    ∀ scope ∈ w.scopes,
      WalksOut w.scopes scope.frame scope.frames ∧ scope.frames.Nodup ∧
      (∀ name, (w.store.find? scope name).map Scope.frame =
          scope.frames.find? (fun id => (w.store.frame id).contains name) ∧
        w.store.lookup? scope name =
          scope.frames.findSome? fun id => (w.store.frame id).get? name) ∧
      w.store.inspectChain scope = "<Environment chain: " ++
        " -> ".intercalate (scope.frames.map fun id => (w.store.frame id).inspect) ++ ">" := by
  intro w
  have hw : w.IsLinked := Workspace.isLinked_empty.advanceAll h
  have hlineage : IsLineage w.scopes := hw.holds.lineage
  refine ⟨⟨hw.holds.size_eq, fun i hi => ⟨hlineage.frame_eq i hi, hlineage.outer_mem i hi⟩,
    w.scopes_prefix_advanceAll⟩, ⟨hw.captures, fun scope name v hv => hw.captures.of_lookup? hv⟩,
    ⟨fun source line rest hread => Reader.capturesFrom_of_parse hread w.scopes,
      fun depth scope hscope code hcode => ?_⟩,
    ⟨fun parameters arguments captured _ hargs => ?_,
      fun depth stamp parameters body captured arguments σ => ?_⟩, fun scope hscope => ?_⟩
  · obtain ⟨hstays, hvalue⟩ := Store.IsLinked.evaluate hw hscope hcode depth
    exact ⟨hvalue, hstays.linked.captures, hstays.replay_eq.symm, hstays.linked.holds.size_eq,
      hstays.events⟩
  · exact fun other hother => Store.IsLinked.not_leads_enter hw hargs parameters hother
  · rw [apply, applyWith_closure]
    exact ⟨rfl, σ.size_enter captured parameters arguments, rfl, rfl, rfl⟩
  · exact ⟨hlineage.walksOut hscope, hlineage.nodup_frames hscope,
      fun name => ⟨w.store.map_frame_find? scope name, w.store.lookup?_eq_findSome? scope name⟩,
      rfl⟩

/-- A function that is given to itself makes a scope that binds a closure over itself; from there
another scope is made, a closure is handed in, and a scope is made for a call of one. -/
theorem scopes_stay_linked_in_circles :
    let root : Scope := .root 0
    let called : Scope := .inner 1 root
    let leaf : Scope := .inner 3 (.inner 2 called)
    let steps : List Step :=
      [.start, .answer 50 root (.text "(defun f (x) (defun g (y) f))"),
        .answer 50 root (.text "(f f)"), .answer 50 root (.text "(g"),
        .answer 50 root (.text "((f g))"), .operate (.make (some called)),
        .operate (.set (.inner 2 called) "h" (.closure 7 ["z"] (.symbol "z") (.inner 2 called))),
        .extend ["z"] [.t] (.inner 2 called)]
    let w := Workspace.empty.advanceAll steps
    Workspace.empty.AdmitsAll steps ∧
      w.scopes = [root, called, .inner 2 called, leaf] ∧
      (w.store.get leaf "g").closures = [(1, called)] ∧
      WalksOut w.scopes 3 [3, 2, 1, 0] ∧
      (w.store.find? leaf "g").map Scope.frame = some 1 ∧
      ∀ binding ∈ (w.store.frame 1).bindings, binding.2.CapturesFrom w.scopes := by
  intro root called leaf steps w
  have h : Workspace.empty.AdmitsAll steps := by decide +kernel
  have hscopes : w.scopes = [root, called, .inner 2 called, leaf] := by decide +kernel
  obtain ⟨-, ⟨hbindings, -⟩, -, -, hwalks⟩ := scopes_stay_linked steps h
  have hleaf : leaf ∈ w.scopes := by
    rw [hscopes]
    decide
  obtain ⟨hwalk, -, hfind, -⟩ := hwalks leaf hleaf
  exact ⟨h, hscopes, by decide +kernel, hwalk, (hfind "g").1.trans (by decide +kernel),
    hbindings 1⟩

end MiniLisp
