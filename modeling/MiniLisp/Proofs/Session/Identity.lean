/-
# The stamp of a function

Functions are equal if their stamps are.  A stamp counts the functions that were made before,
so the definition that made a function can be read off its stamp and what has happened.  In a
session two functions with one stamp are therefore the same in all else too, and equality of
functions is identity.

With that, the main statement on equality can be put together: `equality_keeps_kinds_apart`.
-/
import MiniLisp.Proofs.Session.Run
import MiniLisp.Proofs.Value.Distinct

namespace MiniLisp

/-- The definitions of functions among some events, in order. -/
def madeFunctions (past : List Event) : List Event := past.filter Event.makesClosure

lemma madeFunctions_append (past more : List Event) :
    madeFunctions (past ++ more) = madeFunctions past ++ madeFunctions more :=
  List.filter_append ..

/-! ### Values -/

/-- Every function in a value was made by the definition whose place its stamp is. -/
def Value.IsStamped (past : List Event) (v : Value) : Prop :=
  ∀ stamp parameters body captured, (closure stamp parameters body captured).Occurs v →
    ∃ name, (madeFunctions past)[stamp]? = some (.functionDefined name parameters body captured)

namespace Value

variable {past : List Event} {v : Value}

lemma mem_closures_of_occurs {stamp : Nat} {parameters : List String} {body : Value}
    {captured : Scope} (h : (closure stamp parameters body captured).Occurs v) :
    (stamp, captured) ∈ v.closures := by
  induction h with
  | refl => exact List.mem_cons_self
  | item hmem _ ih => exact mem_closures_list.2 ⟨_, hmem, ih⟩

namespace IsStamped

/-- Definitions that follow have other places. -/
lemma append (h : v.IsStamped past) (more : List Event) : v.IsStamped (past ++ more) := by
  intro stamp parameters body captured hoccurs
  obtain ⟨name, hget⟩ := h stamp parameters body captured hoccurs
  refine ⟨name, ?_⟩
  rw [madeFunctions_append,
    List.getElem?_append_left (List.getElem?_eq_some_iff.1 hget).choose, hget]

lemma of_closures_eq_nil (h : v.closures = []) : v.IsStamped past := by
  intro stamp parameters body captured hoccurs
  have hmem := mem_closures_of_occurs hoccurs
  rw [h] at hmem
  cases hmem

lemma item {items : List Value} (h : (list items).IsStamped past) (hmem : v ∈ items) :
    v.IsStamped past :=
  fun _ _ _ _ hoccurs => h _ _ _ _ (.item hmem hoccurs)

/-- Functions that equal each other are the same, wherever they are found. -/
lemma same_iff_eq {f g : Value} (hf : f.IsStamped past) (hg : g.IsStamped past)
    (hkind : f.kind = .closure) : same f g ↔ f = g := by
  cases f with
  | closure stamp parameters body captured =>
    constructor
    · intro h
      cases g with
      | closure stamp' parameters' body' captured' =>
        obtain rfl : stamp = stamp' := by simpa [same] using h
        obtain ⟨name, hget⟩ := hf stamp parameters body captured .refl
        obtain ⟨name', hget'⟩ := hg stamp parameters' body' captured' .refl
        -- One place among the definitions has one definition.
        cases hget.symm.trans hget'
        rfl
      | _ => simp [same] at h
    · rintro rfl
      simp [same]
  | _ => cases hkind

end IsStamped

end Value

/-! ### Stores -/

/-- The store counts the functions that were made, and what is bound in it was made under its
stamps. -/
structure Store.IsStamped (past : List Event) (σ : Store) : Prop where
  stamps_eq : σ.stamps = (madeFunctions past).length
  bodies : ∀ name parameters body captured,
    .functionDefined name parameters body captured ∈ madeFunctions past → body.closures = []
  binds : σ.Binds (Value.IsStamped past)

namespace Store.IsStamped

variable {past : List Event} {σ : Store}

/-- Other events than definitions of functions give out no stamp. -/
lemma append (h : σ.IsStamped past) {e : Event} (he : ¬ e.makesClosure) :
    σ.IsStamped (past ++ [e]) := by
  have hmade : madeFunctions (past ++ [e]) = madeFunctions past := by
    simp [madeFunctions, he]
  refine ⟨?_, ?_, h.binds.mono fun v hv => hv.append [e]⟩
  · rw [hmade, h.stamps_eq]
  · rw [hmade]
    exact h.bodies

lemma set (h : σ.IsStamped past) {v : Value} (hv : v.IsStamped past) (scope : Scope)
    (name : String) : (σ.set scope name v).IsStamped past :=
  ⟨h.stamps_eq, h.bodies, h.binds.set hv scope name⟩

lemma enter (h : σ.IsStamped past) {arguments : List Value}
    (hargs : ∀ v ∈ arguments, v.IsStamped past) (parameters : List String) (captured : Scope) :
    (σ.enter parameters arguments captured).2.IsStamped past :=
  ⟨by rw [stamps_enter, h.stamps_eq], h.bodies, h.binds.enter hargs parameters captured⟩

/-- The definition of a function comes after as many others as its stamp says. -/
lemma newClosure (h : σ.IsStamped past) (name : String) (parameters : List String)
    {body : Value} (hbody : body.closures = []) (scope : Scope) :
    let made := σ.newClosure parameters body scope
    let later := past ++ [.functionDefined name parameters body scope]
    made.2.IsStamped later ∧ made.1.IsStamped later := by
  intro made later
  have hmade : madeFunctions later =
      madeFunctions past ++ [.functionDefined name parameters body scope] :=
    madeFunctions_append ..
  refine ⟨⟨?_, ?_, h.binds.mono fun v hv => hv.append _⟩, ?_⟩
  · show σ.stamps + 1 = _
    rw [hmade, h.stamps_eq, List.length_append, List.length_singleton]
  · intro name' parameters' body' captured' hmem
    rw [hmade] at hmem
    rcases List.mem_append.1 hmem with hmem | hmem
    · exact h.bodies _ _ _ _ hmem
    · cases List.mem_singleton.1 hmem
      exact hbody
  · intro stamp parameters' body' captured' hoccurs
    cases hoccurs
    refine ⟨name, ?_⟩
    rw [hmade, h.stamps_eq, List.getElem?_concat_length]

lemma fresh : Session.fresh.store.IsStamped [] where
  stamps_eq := rfl
  bodies := by simp [madeFunctions]
  binds := fun _ _ hmem => .of_closures_eq_nil <| Value.closures_of_isInert <|
    Frame.isInert_of_mem_builtins (mem_builtins_of_mem_newDefault hmem)

end Store.IsStamped

/-- That stamps tell functions apart, for code in which there are none. -/
def Invariant.stamped : Invariant where
  store past σ := σ.IsStamped past
  code _ _ c := c.closures = []
  value past v := v.IsStamped past
  code_append _ h := h
  value_append more h := h.append more
  code_parts h hpart := by
    obtain ⟨items, rfl, hmem⟩ := Value.exists_list_of_mem_parts hpart
    exact Value.closures_list_eq_nil_iff.1 h _ hmem
  value_plain _ h := .of_closures_eq_nil (Value.closures_of_isPlain h)
  value_self h _ := .of_closures_eq_nil h
  value_quoted h := .of_closures_eq_nil (Value.closures_list_eq_nil_iff.1 h _ (by simp))
  value_lookup h _ hlookup := h.binds.of_lookup? hlookup
  store_visited h _ := h.append Bool.false_ne_true
  store_parameter h _ hv :=
    (h.append (e := .parameterDefined ..) Bool.false_ne_true).set (hv.append _) _ _
  store_function := by
    intro past σ scope name parameters body h hcode
    have hbody : body.closures = [] := Value.closures_list_eq_nil_iff.1 hcode _ (by simp)
    obtain ⟨hstore, hvalue⟩ := h.newClosure name parameters hbody scope
    exact hstore.set hvalue scope name
  store_entered h _ hargs :=
    (h.append (e := .entered ..) Bool.false_ne_true).enter
      (fun v hv => (hargs v hv).append _) _ _
  code_entered h hf _ := by
    obtain ⟨name, hget⟩ := hf _ _ _ _ .refl
    exact h.bodies _ _ _ _ (List.mem_of_getElem? hget)

/-! ### Sessions -/

/-- A value that can be found after a session: that it gave, that is bound, or in a list. -/
inductive Session.Found (answers : List Answer) (last : Session) : Value → Prop
  /-- The value of a line. -/
  | given {answer : Answer} {v : Value} (hanswer : answer ∈ answers)
    (hv : answer.result = .ok v) : Found answers last v
  /-- A value that is bound at the end. -/
  | bound {id : FrameId} {name : String} {v : Value}
    (hbinding : (name, v) ∈ (last.store.frame id).bindings) : Found answers last v
  /-- An element of a list. -/
  | element {items : List Value} {v : Value} (hlist : Found answers last (.list items))
    (hmem : v ∈ items) : Found answers last v

/-- What can be found after a session was made under its stamps. -/
lemma Session.isStamped_of_found {depth : Nat} {sources : List Reader.Source} {v : Value} :
    let answered := fresh.answerAll depth sources
    Found answered.1 answered.2 v → v.IsStamped (traceAll answered.1) := by
  intro answered h
  obtain ⟨hstore, hgiven⟩ := keeps_answerAll .stamped depth sources
    (fun _ _ ⟨_, _, _, hread⟩ => closures_of_isReadable (Reader.isReadable_of_parse hread))
    Store.IsStamped.fresh
  induction h with
  | given hanswer hv => exact hgiven _ hanswer _ hv
  | bound hbinding => exact hstore.binds _ _ hbinding
  | element _ hmem ih => exact ih.item hmem

/-! ### The table of special forms -/

/-- The special forms by their symbols. -/
def SpecialForm.table : List (Value × SpecialForm) :=
  all.map fun form => (.symbol form.name, form)

/-- The special form of the head of a list is what the table has under it. -/
lemma lookup?_table (v : Value) : Value.lookup? SpecialForm.table v = formOf? v := by
  rw [Value.lookup?_eq, SpecialForm.table, List.find?_map, Option.map_map]
  cases v with
  | symbol name =>
    rw [formOf?, SpecialForm.ofName?]
    simp [Value.same, Function.comp_def, beq_eq_decide]
  | _ => simp [Value.same, Function.comp_def, formOf?]

lemma isSome_formOf?_iff {v : Value} :
    (formOf? v).isSome ↔ v ∈ ["quote", "if", "defparameter", "defun"].map Value.symbol := by
  have hall : ∀ form, form ∈ SpecialForm.all := by
    intro form
    cases form <;> decide
  show _ ↔ v ∈ (SpecialForm.all.map SpecialForm.name).map Value.symbol
  rw [Option.isSome_iff_exists, List.map_map, List.mem_map]
  refine exists_congr fun form => ?_
  rw [formOf?_eq_some_iff, and_iff_right (hall form)]
  exact eq_comm

/-! ### Equality -/

open Value

/-- **Equality keeps kinds apart.**  It does so at any depth of lists, and it is an equivalence
where no NaN occurs:

* a value equals a copy of itself exactly if no NaN occurs in it, and it equals itself exactly if
  it is not NaN; equality is symmetric and transitive;
* at the ends of the same paths equal values hold values of the same kinds, if any;
* lists are equal exactly if they have the same length and equal elements in order, numbers if
  they are the same or both zero, and other data if they are the same;
* whatever a session was given, the functions that can be found after it have the places of the
  definitions that made them as stamps, and they are equal exactly if they are the same;
* equal values have equal hashes, so no table tells them apart.

To drop from a list what equals an earlier value is then to keep the first of each class in
order: a value at the end is kept exactly if none before it equals it, each value finds the same
equal value first as in the whole list, no two equal values are left, and dropping once more
drops nothing.  Where no NaN occurs it makes no difference to the table of a list that some
values are compared with themselves.

The table of special forms has under each key the form that evaluation takes it for as the head
of a list.  These are the symbols of the four forms and nothing else, texts of the same spelling
not even though they have the same hash. -/
theorem equality_keeps_kinds_apart :
    (∀ v, (same v v ↔ ¬ (number .nan).Occurs v) ∧ (v.isReflexive ↔ v ≠ .number .nan)) ∧
    (∀ u v, same u v → same v u) ∧
    (∀ u v w, same u v → same v w → same u w) ∧
    (∀ u v, same u v → ∀ path, (u.nested? path).map kind = (v.nested? path).map kind) ∧
    (∀ us vs, same (.list us) (.list vs) ↔ List.Forall₂ (fun u v => same u v) us vs) ∧
    (∀ x y, same (.number x) (.number y) ↔ x ≠ .nan ∧ (x = y ∨ x.isZero ∧ y.isZero)) ∧
    (∀ u v, u.kind ∉ [.number, .list, .closure] → (same u v ↔ u = v)) ∧
    (∀ depth sources, let answered := Session.fresh.answerAll depth sources
      let found := Session.Found answered.1 answered.2
      (∀ v, found v → v.IsStamped (Session.traceAll answered.1)) ∧
        ∀ f g, found f → found g → f.kind = .closure → (same f g ↔ f = g)) ∧
    (∀ u v, same u v → u.hashCode = v.hashCode) ∧
    (∀ (α : Type) (table : List (Value × α)) u v, same u v → lookup? table u = lookup? table v) ∧
    (∀ vs v, distinct (vs ++ [v]) = distinct vs ++ if vs.any (same · v) then [] else [v]) ∧
    (∀ vs v, (distinct vs).find? (same · v) = vs.find? (same · v)) ∧
    (∀ vs, (distinct vs).Sublist vs ∧ (distinct vs).Pairwise (fun u v => ¬ same u v) ∧
      distinct (distinct vs) = distinct vs) ∧
    (∀ vs, (∀ v ∈ vs, ¬ (number .nan).Occurs v) →
      equalityTable vs = vs.map fun v => vs.map (same v)) ∧
    (∀ v, lookup? SpecialForm.table v = formOf? v) ∧
    (∀ v, (formOf? v).isSome ↔ v ∈ ["quote", "if", "defparameter", "defun"].map symbol) ∧
    ∀ name, (text name).hashCode = (symbol name).hashCode ∧
      lookup? SpecialForm.table (text name) = none := by
  refine ⟨fun _ => ⟨same_self_iff, isReflexive_iff⟩, fun _ _ => same_symm, fun _ _ _ => same_trans,
    fun _ _ => map_kind_nested?_of_same, fun _ _ => same_list_iff, fun _ _ => Binary64.agrees_iff,
    fun _ _ => same_iff_eq, ?_, fun _ _ => hashCode_eq_of_same, fun _ _ _ _ => lookup?_eq_of_same _,
    distinct_concat, find?_distinct, ?_, fun _ => equalityTable_eq, lookup?_table,
    fun _ => isSome_formOf?_iff, fun name => ⟨rfl, lookup?_table (text name)⟩⟩
  · intro depth sources answered found
    exact ⟨fun _ => Session.isStamped_of_found, fun f g hf hg =>
      (Session.isStamped_of_found hf).same_iff_eq (Session.isStamped_of_found hg)⟩
  · intro vs
    have hpairwise := pairwise_distinct vs
    exact ⟨distinct_sublist vs, hpairwise, distinct_eq_self hpairwise⟩

end MiniLisp
