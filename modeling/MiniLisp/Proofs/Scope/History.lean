/-
# Scopes obey their history

After any operations on scopes, each frame records the writes to its scope and nothing else, and
a name means what was last written to it in the nearest scope that it was ever written in.
Scopes may be made before or after those outside them are written to.

That a write changes the look-ups from certain scopes only is said with `Store.Reaches`.
-/
import Mathlib.Data.List.Find
import MiniLisp.Eval.Run
import MiniLisp.Proofs.Scope.Workspace

namespace MiniLisp

/-! ### What a write changes -/

/-- Going outwards from a scope one reaches the target before any other scope that has the
name. -/
inductive Store.Reaches (σ : Store) (target : Scope) (name : String) : Scope → Prop
  | here : Reaches σ target name target
  | outwards {id : FrameId} {outer : Scope} (h : (σ.frame id).get? name = none)
    (hrest : Reaches σ target name outer) : Reaches σ target name (.inner id outer)

namespace Store

variable {σ : Store} {target scope : Scope} {name : String}

/-- From a scope that reaches the target the value that was written is found. -/
lemma Reaches.lookup?_set (h : σ.Reaches target name scope)
    (htarget : target.frame < σ.frames.size) (value : Value) :
    (σ.set target name value).lookup? scope name = some value := by
  have hwritten : ((σ.set target name value).frame target.frame).get? name = some value := by
    rw [get?_frame_set _ _ htarget, if_pos rfl]
  induction h with
  | here =>
    cases target with
    | root id => rwa [lookup?_root]
    | inner id outer =>
      rw [lookup?_inner]
      exact Option.or_eq_some_iff.2 (Or.inl hwritten)
  | @outwards id outer hnone hrest ih =>
    rw [lookup?_inner, ih]
    by_cases hid : id = target.frame
    · rw [hid, hwritten]
      rfl
    · rw [frame_set_of_ne _ _ hid, hnone]
      rfl

/-- What another name means does not change. -/
lemma lookup?_set_of_ne {other : String} (hne : other ≠ name) (value : Value) :
    (σ.set target name value).lookup? scope other = σ.lookup? scope other := by
  have hframe : ∀ id, ((σ.set target name value).frame id).get? other =
      (σ.frame id).get? other := by
    intro id
    by_cases hid : id = target.frame ∧ id < σ.frames.size
    · rw [get?_frame_set _ _ (hid.1 ▸ hid.2), if_neg fun heq => hne (Prod.mk.inj heq).2.symm]
    · rw [frame_set_of_not _ _ hid]
  induction scope with
  | root id => rw [lookup?_root, lookup?_root, hframe]
  | inner id outer ih => rw [lookup?_inner, lookup?_inner, hframe, ih]

/-- Nor does it from a scope that does not reach the target. -/
lemma lookup?_set_of_not_reaches {made : List Scope} (hmade : IsLineage made)
    (htarget : target ∈ made) (hscope : scope ∈ made) (h : ¬ σ.Reaches target name scope)
    (value : Value) : (σ.set target name value).lookup? scope name = σ.lookup? scope name := by
  induction scope with
  | root id =>
    have hid : id ≠ target.frame := fun heq =>
      h (hmade.eq_of_frame_eq hscope htarget heq ▸ .here)
    rw [lookup?_root, lookup?_root, frame_set_of_ne _ _ hid]
  | inner id outer ih =>
    have hid : id ≠ target.frame := fun heq =>
      h (hmade.eq_of_frame_eq hscope htarget heq ▸ .here)
    rw [lookup?_inner, lookup?_inner, frame_set_of_ne _ _ hid]
    cases hget : (σ.frame id).get? name with
    | some v => rfl
    | none => rw [ih (hmade.outer_older hscope rfl).1 fun hrest => h (.outwards hget hrest)]

end Store

/-! ### What operations lead to -/

/-- The scopes of a workspace record the writes of the operations so far. -/
structure Workspace.Follows (past : List Operation) (w : Workspace) : Prop where
  holds : w.store.Holds w.scopes
  needs_mem : ∀ operation ∈ past, ∀ scope ∈ operation.needs, scope ∈ w.scopes
  records : ∀ scope ∈ w.scopes, (w.store.frame scope.frame).Records (writtenTo past scope)

namespace Workspace

variable {w : Workspace} {past : List Operation}

lemma writtenTo_concat (operation : Operation) (scope : Scope) :
    writtenTo (past ++ [operation]) scope =
      writtenTo past scope ++ operation.writesTo scope := by
  rw [writtenTo, List.flatMap_append, List.flatMap_singleton, ← writtenTo]

lemma follows_empty : empty.Follows [] := ⟨Store.holds_empty, nofun, nofun⟩

namespace Follows

variable (h : w.Follows past)

include h

/-- Nothing was written to a scope that was not made yet. -/
lemma writtenTo_eq_nil {scope : Scope} (hscope : scope ∉ w.scopes) :
    writtenTo past scope = [] := by
  rw [writtenTo, List.flatMap_eq_nil_iff]
  intro operation hoperation
  rw [Operation.writesTo, if_neg]
  exact fun htarget =>
    hscope (h.needs_mem operation hoperation scope (Operation.mem_needs_of_target? htarget))

lemma make {outer : Option Scope} (hallows : w.Allows (.make outer)) :
    (w.perform (.make outer)).Follows (past ++ [.make outer]) where
  holds := holds_perform h.holds hallows
  needs_mem := by
    intro operation hoperation scope hscope
    refine List.mem_append_left _ ?_
    rcases List.mem_append.1 hoperation with hoperation | hoperation
    · exact h.needs_mem operation hoperation scope hscope
    · rw [List.mem_singleton.1 hoperation] at hscope
      exact hallows scope hscope
  records := by
    intro scope hscope
    show (w.store.grow.frame scope.frame).Records _
    rw [Store.frame_grow, writtenTo_concat, Operation.writesTo, if_neg nofun, List.append_nil]
    rcases List.mem_append.1 hscope with hscope | hscope
    · exact h.records scope hscope
    · -- The new scope has an empty frame, and no operation so far has written to it.
      rw [List.mem_singleton.1 hscope, h.writtenTo_eq_nil (h.holds.nextScope_notMem outer),
        Store.frame_of_size_le _ (Nat.le_of_eq (Store.frame_nextScope _ _).symm)]
      exact .empty

lemma write {operation : Operation} {target : Scope} (htarget : operation.target? = some target)
    (hallows : w.Allows operation) : (w.perform operation).Follows (past ++ [operation]) where
  holds := holds_perform h.holds hallows
  needs_mem := by
    intro other hother scope hscope
    rw [perform_of_target? w htarget]
    rcases List.mem_append.1 hother with hother | hother
    · exact h.needs_mem other hother scope hscope
    · rw [List.mem_singleton.1 hother] at hscope
      exact hallows scope hscope
  records := by
    intro scope hscope
    rw [perform_of_target? w htarget] at hscope ⊢
    rw [writtenTo_concat, Operation.writesTo, htarget]
    by_cases heq : target = scope
    · subst heq
      rw [if_pos rfl]
      show ((w.store.setAll target operation.bindings).frame target.frame).Records _
      rw [Store.frame_setAll (h.holds.frame_lt hscope)]
      exact (h.records target hscope).insertAll _
    · have hmem : target ∈ w.scopes := hallows target (Operation.mem_needs_of_target? htarget)
      have hne : scope.frame ≠ target.frame := fun hframe =>
        heq (h.holds.lineage.eq_of_frame_eq hmem hscope hframe.symm)
      rw [if_neg fun hsome => heq (Option.some.inj hsome), List.append_nil]
      show ((w.store.setAll target operation.bindings).frame scope.frame).Records _
      rw [Store.frame_setAll_of_ne _ _ hne]
      exact h.records scope hscope

/-- One operation. -/
lemma perform {operation : Operation} (hallows : w.Allows operation) :
    (w.perform operation).Follows (past ++ [operation]) := by
  rcases operation.make_or_target with ⟨outer, rfl⟩ | ⟨target, htarget⟩
  · exact h.make hallows
  · exact h.write htarget hallows

/-- Any number of operations. -/
lemma performAll {operations : List Operation} (hallows : w.AllowsAll operations) :
    (w.performAll operations).Follows (past ++ operations) := by
  induction operations generalizing w past with
  | nil => rwa [List.append_nil]
  | cons operation rest ih =>
    have hrest := ih (h.perform hallows.1) hallows.2
    rwa [List.append_assoc] at hrest

end Follows

end Workspace

/-- In the scope that a name is found in it has a value, and this is what it means. -/
lemma Store.exists_of_find? {σ : Store} {scope owner : Scope} {name : String}
    (h : σ.find? scope name = some owner) :
    ∃ v, (σ.frame owner.frame).get? name = some v ∧ σ.lookup? scope name = some v := by
  have hcontains : (σ.frame owner.frame).contains name := by
    rw [find?_eq_find?_chain] at h
    exact List.find?_some (p := fun other : Scope => (σ.frame other.frame).contains name) h
  obtain ⟨v, hv⟩ := Option.isSome_iff_exists.1 hcontains
  refine ⟨v, hv, ?_⟩
  rw [lookup?, h]
  exact hv

/-- **Scopes obey their history.**  After any operations, each on scopes that were made before:

* the frame of a scope has just the names that were ever written to the scope, each once, in the
  order in which they were first written, and with the value that was written last;
* a name is found in the nearest scope, going outwards, that it was ever written to; looking it
  up gives the value that was written there last, with and without an error for names that mean
  nothing; and it fails just if the name is found nowhere;
* one more write changes what the name that is written means, for the scopes that reach the
  scope written to before any other one that has the name, and nothing else;
* to bind the names of a mapping is to bind its pairs one after another, repeated names and
  all. -/
theorem scopes_obey_their_history (operations : List Operation)
    (h : Workspace.empty.AllowsAll operations) :
    let w := Workspace.empty.performAll operations
    let written := writtenTo operations
    (∀ scope ∈ w.scopes,
      (w.store.frame scope.frame).names = ((written scope).map Prod.fst).eraseDups ∧
      ∀ name, (w.store.frame scope.frame).get? name = (written scope).reverse.lookup name) ∧
    (∀ scope ∈ w.scopes, ∀ name,
      w.store.find? scope name =
        scope.chain.find? (fun other => name ∈ (written other).map Prod.fst) ∧
      (w.store.find? scope name = none →
        (Evaluation.lookup scope name w.store).result = .error (.unbound name) ∧
        w.store.get scope name = .foreign) ∧
      ∀ owner, w.store.find? scope name = some owner →
        ∃ v, (written owner).reverse.lookup name = some v ∧
          (Evaluation.lookup scope name w.store).result = .ok v ∧ w.store.get scope name = v) ∧
    (∀ target ∈ w.scopes, ∀ name value, ∀ scope ∈ w.scopes,
      (w.store.Reaches target name scope →
        (w.store.set target name value).lookup? scope name = some value) ∧
      ∀ other, ¬ (other = name ∧ w.store.Reaches target name scope) →
        (w.store.set target name value).lookup? scope other = w.store.lookup? scope other) ∧
    ∀ target pairs, w.store.update target (.ofList pairs) = w.store.setAll target pairs := by
  intro w written
  have hw : w.Follows operations := Workspace.follows_empty.performAll h
  have hlineage := hw.holds.lineage
  refine ⟨fun scope hscope =>
      ⟨(hw.records scope hscope).names_eq, (hw.records scope hscope).get?_eq⟩,
    fun scope hscope name => ⟨?_, fun hnone => ?_, fun owner howner => ?_⟩,
    fun target htarget name value scope hscope =>
      ⟨fun hreaches => hreaches.lookup?_set (hw.holds.frame_lt htarget) value,
        fun other hother => ?_⟩,
    w.store.update_ofList⟩
  · rw [Store.find?_eq_find?_chain]
    refine List.find?_congr fun other hother => ?_
    have hrecords := hw.records other (hlineage.mem_of_mem_chain hscope hother)
    exact Bool.eq_iff_iff.2 (hrecords.contains_iff.trans decide_eq_true_iff.symm)
  · have hlookup : w.store.lookup? scope name = none :=
      (Store.lookup?_eq_none_iff _ _ _).2 hnone
    rw [Evaluation.lookup, Store.get, hlookup]
    exact ⟨rfl, rfl⟩
  · obtain ⟨v, hv, hlookup⟩ := Store.exists_of_find? howner
    have hmem : owner ∈ w.scopes := by
      rw [Store.find?_eq_find?_chain] at howner
      exact hlineage.mem_of_mem_chain hscope (List.mem_of_find?_eq_some howner)
    refine ⟨v, ((hw.records owner hmem).get?_eq name).symm.trans hv, ?_⟩
    rw [Evaluation.lookup, Store.get, hlookup]
    exact ⟨rfl, rfl⟩
  · by_cases hne : other = name
    · subst hne
      exact Store.lookup?_set_of_not_reaches hlineage htarget hscope
        (fun hreaches => hother ⟨rfl, hreaches⟩) value
    · exact Store.lookup?_set_of_ne hne value

/-- A scope within a scope within the root: names are written further in before and after they
are written further out, and again, and by mappings with repeated names. -/
theorem history_of_nested_scopes :
    let root : Scope := .root 0
    let middle : Scope := .inner 1 root
    let leaf : Scope := .inner 2 middle
    let operations : List Operation :=
      [.make none, .make (some root), .set middle "x" .nil, .make (some middle),
        .set root "x" .t, .set root "y" .nil, .register root,
        .update middle (.ofList [("z", .t), ("x", .t), ("z", .nil)]), .set root "x" .nil]
    let w := Workspace.empty.performAll operations
    Workspace.empty.AllowsAll operations ∧
      (w.store.frame root.frame).names = ["x", "y", "t", "+", "-", "*", "/", "<", "<=", "numberp"] ∧
      (w.store.frame middle.frame).names = ["x", "z"] ∧
      w.store.find? leaf "x" = some middle ∧ w.store.find? leaf "y" = some root ∧
      w.store.find? leaf "w" = none ∧ w.store.get leaf "w" = .foreign := by
  intro root middle leaf operations w
  have h : Workspace.empty.AllowsAll operations := by decide +kernel
  obtain ⟨hframes, hfind, -⟩ := scopes_obey_their_history operations h
  have hroot : root ∈ w.scopes := by decide +kernel
  have hmiddle : middle ∈ w.scopes := by decide +kernel
  have hleaf : leaf ∈ w.scopes := by decide +kernel
  have hw : w.store.find? leaf "w" = none := (hfind leaf hleaf "w").1.trans (by decide +kernel)
  exact ⟨h, (hframes root hroot).1.trans (by decide +kernel),
    (hframes middle hmiddle).1.trans (by decide +kernel),
    (hfind leaf hleaf "x").1.trans (by decide +kernel),
    (hfind leaf hleaf "y").1.trans (by decide +kernel), hw, ((hfind leaf hleaf "w").2.1 hw).2⟩

end MiniLisp
