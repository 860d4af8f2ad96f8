/-
# Relabelled values

A value mentions names, as symbols and as the parameters of closures, and each closure in it
has a stamp and a scope.  A relabelling replaces all three throughout a value, also in the
bodies of closures, and changes nothing else.

Two runs of the same program may differ in how they name things, in which frames they make
and in how many closures they made before; then the values of the one are the relabelled
values of the other.
-/
import Mathlib.Tactic.Lemma
import MiniLisp.Value.Display

namespace MiniLisp

/-- What names, stamps and scopes are replaced by. -/
structure Relabelling where
  name : String → String
  stamp : Nat → Nat
  scope : Scope → Scope

/-- The scope with other frames. -/
def Scope.renumber (f : FrameId → FrameId) : Scope → Scope
  | .root frame => .root (f frame)
  | .inner frame outer => .inner (f frame) (outer.renumber f)

@[simp] lemma Scope.frame_renumber (f : FrameId → FrameId) (scope : Scope) :
    (scope.renumber f).frame = f scope.frame := by
  cases scope <;> rfl

lemma Scope.renumber_eq_self {f : FrameId → FrameId} {scope : Scope}
    (h : ∀ id ∈ scope.frames, f id = id) : scope.renumber f = scope := by
  induction scope with
  | root frame => rw [renumber, h frame (List.mem_singleton.2 rfl)]
  | inner frame outer ih =>
    rw [renumber, h frame List.mem_cons_self, ih fun id hid => h id (List.mem_cons_of_mem _ hid)]

/-- A list stays as it is if all its elements do. -/
lemma map_eq_self {α : Type} {f : α → α} {l : List α} (h : ∀ a ∈ l, f a = a) : l.map f = l :=
  (List.map_congr_left h).trans (List.map_id' l)

namespace Value

/-! ### Walking through values -/

/-- Whether there is no name and no closure in a value, whatever it is. -/
def isInert : Value → Bool
  | .symbol _ => false
  | .list _ => false
  | .closure .. => false
  | _ => true

mutual

/-- Induction on a value through the elements of lists and the bodies of closures. -/
@[elab_as_elim]
theorem induction {motive : Value → Prop} (inert : ∀ v, isInert v → motive v)
    (symbol : ∀ name, motive (.symbol name))
    (list : ∀ items, (∀ v ∈ items, motive v) → motive (.list items))
    (closure : ∀ stamp parameters body scope, motive body →
      motive (.closure stamp parameters body scope)) : ∀ v, motive v
  | .symbol name => symbol name
  | .list items => list items (inductionAll inert symbol list closure items)
  | .closure stamp parameters body scope =>
    closure stamp parameters body scope (induction inert symbol list closure body)
  | .number _ | .text _ | .nil | .t | .native _ | .foreign => inert _ rfl

theorem inductionAll {motive : Value → Prop} (inert : ∀ v, isInert v → motive v)
    (symbol : ∀ name, motive (.symbol name))
    (list : ∀ items, (∀ v ∈ items, motive v) → motive (.list items))
    (closure : ∀ stamp parameters body scope, motive body →
      motive (.closure stamp parameters body scope)) : ∀ vs : List Value, ∀ v ∈ vs, motive v
  | [] => nofun
  | v :: vs => List.forall_mem_cons.2
    ⟨induction inert symbol list closure v, inductionAll inert symbol list closure vs⟩

end

mutual

/-- The value with other names, stamps and scopes. -/
def relabel (f : Relabelling) : Value → Value
  | .symbol name => .symbol (f.name name)
  | .list items => .list (relabelAll f items)
  | .closure stamp parameters body scope =>
    .closure (f.stamp stamp) (parameters.map f.name) (relabel f body) (f.scope scope)
  | v => v

/-- The elements of a list with other names, stamps and scopes. -/
def relabelAll (f : Relabelling) : List Value → List Value
  | [] => []
  | v :: vs => relabel f v :: relabelAll f vs

end

mutual

/-- The names that occur in a value as symbols or as parameters. -/
def mentioned : Value → List String
  | .symbol name => [name]
  | .list items => mentionedAll items
  | .closure _ parameters body _ => parameters ++ mentioned body
  | _ => []

/-- The names that occur in the elements of a list. -/
def mentionedAll : List Value → List String
  | [] => []
  | v :: vs => mentioned v ++ mentionedAll vs

end

mutual

/-- The stamps and the scopes of the closures in a value. -/
def closures : Value → List (Nat × Scope)
  | .list items => closuresAll items
  | .closure stamp _ body scope => (stamp, scope) :: closures body
  | _ => []

/-- The stamps and the scopes of the closures in the elements of a list. -/
def closuresAll : List Value → List (Nat × Scope)
  | [] => []
  | v :: vs => closures v ++ closuresAll vs

end

lemma mentionedAll_eq_flatMap (vs : List Value) : mentionedAll vs = vs.flatMap mentioned := by
  induction vs with
  | nil => rfl
  | cons v vs ih => rw [mentionedAll, List.flatMap_cons, ih]

lemma closuresAll_eq_flatMap (vs : List Value) : closuresAll vs = vs.flatMap closures := by
  induction vs with
  | nil => rfl
  | cons v vs ih => rw [closuresAll, List.flatMap_cons, ih]

lemma mem_mentioned_list {items : List Value} {name : String} :
    name ∈ mentioned (.list items) ↔ ∃ v ∈ items, name ∈ v.mentioned := by
  rw [mentioned, mentionedAll_eq_flatMap, List.mem_flatMap]

lemma mem_closures_list {items : List Value} {c : Nat × Scope} :
    c ∈ closures (.list items) ↔ ∃ v ∈ items, c ∈ v.closures := by
  rw [closures, closuresAll_eq_flatMap, List.mem_flatMap]

lemma forall_closures_list {P : Nat × Scope → Prop} {items : List Value} :
    (∀ c ∈ closures (.list items), P c) ↔ ∀ v ∈ items, ∀ c ∈ v.closures, P c := by
  simp only [mem_closures_list]
  exact ⟨fun h v hv c hc => h c ⟨v, hv, hc⟩, fun h c ⟨v, hv, hc⟩ => h v hv c hc⟩

lemma closures_list_eq_nil_iff {items : List Value} :
    closures (.list items) = [] ↔ ∀ v ∈ items, v.closures = [] := by
  rw [closures, closuresAll_eq_flatMap, List.flatMap_eq_nil_iff]

lemma forall_closures_closure {P : Nat × Scope → Prop} {stamp : Nat} {parameters : List String}
    {body : Value} {scope : Scope} :
    (∀ c ∈ closures (.closure stamp parameters body scope), P c) ↔
      P (stamp, scope) ∧ ∀ c ∈ body.closures, P c := by
  simp only [closures, List.forall_mem_cons]

lemma closures_of_isInert {v : Value} (h : v.isInert) : v.closures = [] := by
  cases v with
  | symbol name => cases h
  | list items => cases h
  | closure stamp parameters body scope => cases h
  | _ => rfl

/-! ### Relabelling -/

section

variable (f : Relabelling)

lemma relabelAll_eq_map (vs : List Value) : relabelAll f vs = vs.map (relabel f) := by
  induction vs with
  | nil => rfl
  | cons v vs ih => rw [relabelAll, List.map_cons, ih]

@[simp] lemma relabel_symbol (name : String) :
    relabel f (.symbol name) = .symbol (f.name name) := rfl

@[simp] lemma relabel_list (items : List Value) :
    relabel f (.list items) = .list (items.map (relabel f)) := by
  rw [relabel, relabelAll_eq_map]

@[simp] lemma relabel_closure (stamp : Nat) (parameters : List String) (body : Value)
    (scope : Scope) :
    relabel f (.closure stamp parameters body scope) =
      .closure (f.stamp stamp) (parameters.map f.name) (relabel f body) (f.scope scope) := rfl

lemma relabel_inert {v : Value} (h : v.isInert) : relabel f v = v := by
  cases v with
  | symbol name => cases h
  | list items => cases h
  | closure stamp parameters body scope => cases h
  | _ => rfl

@[simp] lemma relabel_ofBool (flag : Bool) : relabel f (ofBool flag) = ofBool flag := by
  cases flag <;> rfl

@[simp] lemma isTrue_relabel (v : Value) : (relabel f v).isTrue = v.isTrue := by
  cases v <;> rfl

@[simp] lemma number?_relabel (v : Value) : (relabel f v).number? = v.number? := by
  cases v <;> rfl

lemma symbol?_relabel (v : Value) : (relabel f v).symbol? = v.symbol?.map f.name := by
  cases v <;> rfl

@[simp] lemma isDisplayable_relabel (v : Value) :
    (relabel f v).isDisplayable = v.isDisplayable := by
  induction v using induction with
  | inert v h => rw [relabel_inert f h]
  | symbol name => rfl
  | list items ih =>
    rw [relabel_list, isDisplayable, isDisplayable, areDisplayable_eq_all, areDisplayable_eq_all,
      List.all_map, Bool.eq_iff_iff, List.all_eq_true, List.all_eq_true]
    exact forall₂_congr fun v hv => by rw [Function.comp_apply, ih v hv]
  | closure stamp parameters body scope ih => rfl

end

section

variable {f : Relabelling}

/-- Nothing is displayed of a closure, so only names show. -/
lemma display_relabel (h : ∀ name, f.name name = name) (v : Value) :
    (relabel f v).display = v.display := by
  induction v using induction with
  | inert v hv => rw [relabel_inert f hv]
  | symbol name => exact h name
  | list items ih =>
    rw [relabel_list, display, display, displayAll_eq_map, displayAll_eq_map, List.map_map,
      List.map_congr_left (show ∀ v ∈ items, (display ∘ relabel f) v = v.display from ih)]
  | closure stamp parameters body scope ih => rfl

/-- A value stays as it is if all that occurs in it does. -/
lemma relabel_eq_self {v : Value} (hname : ∀ name ∈ v.mentioned, f.name name = name)
    (hclosure : ∀ c ∈ v.closures, f.stamp c.1 = c.1 ∧ f.scope c.2 = c.2) : relabel f v = v := by
  induction v using induction with
  | inert v h => exact relabel_inert f h
  | symbol name => rw [relabel_symbol, hname name (List.mem_singleton.2 rfl)]
  | list items ih =>
    have hitems : items.map (relabel f) = items := map_eq_self fun v hv =>
      ih v hv (fun name hmem => hname name (mem_mentioned_list.2 ⟨v, hv, hmem⟩))
        fun c hmem => hclosure c (mem_closures_list.2 ⟨v, hv, hmem⟩)
    rw [relabel_list, hitems]
  | closure stamp parameters body scope ih =>
    have hparameters : parameters.map f.name = parameters :=
      map_eq_self fun name hmem => hname name (List.mem_append_left _ hmem)
    have hbody := ih (fun name hmem => hname name (List.mem_append_right _ hmem))
      fun c hmem => hclosure c (List.mem_cons_of_mem _ hmem)
    obtain ⟨hstamp, hscope⟩ := hclosure (stamp, scope) List.mem_cons_self
    rw [relabel_closure, hparameters, hbody, hstamp, hscope]

/-! ### Outlines -/

/-- Takes a closure for any other one with the same parameters and the same body. -/
def outlining : Relabelling := ⟨id, fun _ => 0, fun _ => .root 0⟩

/-- What a value is but for when and where the closures in it were made. -/
def outline (v : Value) : Value := v.relabel outlining

/-- Only names show in the outline. -/
lemma outline_relabel (h : ∀ name, f.name name = name) (v : Value) :
    (relabel f v).outline = v.outline := by
  have hmap : ∀ names : List String, names.map f.name = names := fun names =>
    map_eq_self fun name _ => h name
  unfold outline
  induction v using induction with
  | inert v hv => rw [relabel_inert f hv]
  | symbol name => rw [relabel_symbol, h]
  | list items ih =>
    rw [relabel_list, relabel_list, relabel_list, List.map_map]
    exact congrArg _ (List.map_congr_left ih)
  | closure stamp parameters body scope ih =>
    rw [relabel_closure, relabel_closure, relabel_closure, hmap, ih]
    rfl

end

end Value

end MiniLisp
