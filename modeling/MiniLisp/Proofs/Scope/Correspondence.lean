/-
# Corresponding stores

Two runs correspond if the one can be read off the other by other names, frames and stamps.
The second run may have frames of its own, which stand for none of the first, and there may
be hidden names, which either run may bind as it likes; apart from these, a frame of the
first run and the frame of the second one that stands for it have the same bindings in the
same order, but for the relabelling of names and values.

Binding a name, making a closure and making a scope keep stores corresponding, and names
that are not hidden mean corresponding values.
-/
import Mathlib.Data.List.Basic
import Mathlib.Data.Set.Operations
import Mathlib.Order.Monotone.Basic
import MiniLisp.Eval.SpecialForm
import MiniLisp.Proofs.Scope.Store
import MiniLisp.Proofs.Value.Relabel

namespace MiniLisp

/-- What the names, the frames and the stamps of one run are called in another one.  No two
names become one, the special forms keep their names, and frames keep their order. -/
structure Renaming extends Relabelling where
  frame : FrameId → FrameId
  scope := Scope.renumber frame
  scope_eq : scope = Scope.renumber frame := by rfl
  name_injective : Function.Injective name
  name_form : ∀ form : SpecialForm, name form.name = form.name
  frame_strictMono : StrictMono frame

namespace Renaming

variable (ρ : Renaming)

@[simp] lemma scope_root (id : FrameId) : ρ.scope (.root id) = .root (ρ.frame id) := by
  rw [ρ.scope_eq, Scope.renumber]

@[simp] lemma scope_inner (id : FrameId) (outer : Scope) :
    ρ.scope (.inner id outer) = .inner (ρ.frame id) (ρ.scope outer) := by
  rw [ρ.scope_eq, Scope.renumber]

@[simp] lemma frame_scope (scope : Scope) : (ρ.scope scope).frame = ρ.frame scope.frame := by
  rw [ρ.scope_eq, Scope.frame_renumber]

/-- A binding with another name and another value. -/
def binding : String × Value → String × Value := Prod.map ρ.name (Value.relabel ρ.toRelabelling)

end Renaming

/-- None of some names occurs in a value. -/
def Value.Avoids (names : List String) (v : Value) : Prop := ∀ name ∈ v.mentioned, name ∉ names

namespace Value

variable {names : List String}

@[simp] lemma avoids_symbol {name : String} : Avoids names (.symbol name) ↔ name ∉ names := by
  simp [Avoids, mentioned]

lemma avoids_list {items : List Value} :
    Avoids names (.list items) ↔ ∀ v ∈ items, v.Avoids names := by
  simp only [Avoids, mem_mentioned_list]
  exact ⟨fun h v hv name hname => h name ⟨v, hv, hname⟩,
    fun h name ⟨v, hv, hname⟩ => h v hv name hname⟩

lemma avoids_closure {stamp : Nat} {parameters : List String} {body : Value} {scope : Scope} :
    Avoids names (.closure stamp parameters body scope) ↔
      (∀ name ∈ parameters, name ∉ names) ∧ body.Avoids names := by
  simp only [Avoids, mentioned, List.forall_mem_append]

lemma avoids_inert {v : Value} (h : v.isInert) : v.Avoids names := by
  cases v with
  | symbol name => cases h
  | list items => cases h
  | closure stamp parameters body scope => cases h
  | _ => exact nofun

lemma avoids_nil (v : Value) : v.Avoids [] := fun _ _ => List.not_mem_nil

end Value

/-! ### Bindings -/

namespace Frame

variable {names : List String} {f : String → String} {g : Value → Value}

/-- The bindings of a frame, but for those of some names. -/
def except (names : List String) (frame : Frame) : List (String × Value) :=
  frame.bindings.filter fun binding => binding.1 ∉ names

lemma except_nil (frame : Frame) : frame.except [] = frame.bindings :=
  List.filter_eq_self.2 fun _ _ => by simp

lemma filter_put (name : String) (value : Value) (bindings : List (String × Value)) :
    (put name value bindings).filter (fun binding => binding.1 ∉ names) =
      if name ∈ names then bindings.filter fun binding => binding.1 ∉ names
      else put name value (bindings.filter fun binding => binding.1 ∉ names) := by
  induction bindings with
  | nil => by_cases h : name ∈ names <;> simp [put, h]
  | cons binding rest ih =>
    obtain ⟨other, old⟩ := binding
    rw [put]
    by_cases heq : other = name
    · subst heq
      rw [if_pos rfl, List.filter_cons, List.filter_cons]
      by_cases h : other ∈ names <;> simp [put, h]
    · rw [if_neg heq, List.filter_cons, List.filter_cons, ih]
      by_cases hother : other ∈ names <;> by_cases h : name ∈ names <;>
        simp [put, heq, hother, h]

lemma map_put (hf : Function.Injective f) (name : String) (value : Value)
    (bindings : List (String × Value)) :
    (put name value bindings).map (Prod.map f g) =
      put (f name) (g value) (bindings.map (Prod.map f g)) := by
  induction bindings with
  | nil => rfl
  | cons binding rest ih =>
    obtain ⟨other, old⟩ := binding
    by_cases heq : other = name
    · simp [put, heq]
    · simp [put, heq, hf.ne heq, ih]

lemma lookup_filter {name : String} (h : name ∉ names) (bindings : List (String × Value)) :
    (bindings.filter fun binding => binding.1 ∉ names).lookup name = bindings.lookup name := by
  induction bindings with
  | nil => rfl
  | cons binding rest ih =>
    obtain ⟨other, old⟩ := binding
    rw [List.filter_cons]
    by_cases hother : other ∈ names
    · have hne : name ≠ other := fun heq => h (heq ▸ hother)
      rw [if_neg (by simpa using hother), lookup_cons_ite, if_neg hne, ih]
    · rw [if_pos (by simpa using hother), lookup_cons_ite, lookup_cons_ite, ih]

lemma lookup_map (hf : Function.Injective f) (name : String) (bindings : List (String × Value)) :
    (bindings.map (Prod.map f g)).lookup (f name) = (bindings.lookup name).map g := by
  induction bindings with
  | nil => rfl
  | cons binding rest ih =>
    obtain ⟨other, old⟩ := binding
    rw [List.map_cons, Prod.map_apply, lookup_cons_ite, lookup_cons_ite, ih]
    by_cases heq : name = other
    · rw [if_pos heq, if_pos (congrArg f heq), Option.map_some]
    · rw [if_neg heq, if_neg (hf.ne heq)]

lemma except_insert (frame : Frame) (name : String) (value : Value) :
    (frame.insert name value).except names =
      if name ∈ names then frame.except names else put name value (frame.except names) :=
  filter_put name value frame.bindings

end Frame

/-! ### Stores -/

/-- A way to compare two runs. -/
structure Correspondence extends Renaming where
  /-- The names of the first run that the runs need not agree on. -/
  hidden : List String
  /-- A store of the second run: its frames that stand for none of the first run stay as
  they are in it. -/
  base : Store

namespace Correspondence

/-- The stores of the two runs correspond.  What will be made next corresponds too. -/
structure Matches (K : Correspondence) (σ σ' : Store) : Prop where
  next_frame : ∀ k, K.frame (σ.frames.size + k) = σ'.frames.size + k
  next_stamp : ∀ k, K.stamp (σ.stamps + k) = σ'.stamps + k
  bindings_eq : ∀ id, (σ'.frame (K.frame id)).except (K.hidden.map K.name) =
    ((σ.frame id).except K.hidden).map K.binding
  avoids : ∀ id, ∀ binding ∈ (σ.frame id).except K.hidden, binding.2.Avoids K.hidden
  aside : ∀ id ∉ Set.range K.frame, σ'.frame id = K.base.frame id

variable {K : Correspondence} {σ σ' : Store} {name : String}

lemma mem_hidden_iff : K.name name ∈ K.hidden.map K.name ↔ name ∈ K.hidden :=
  List.mem_map_of_injective K.name_injective

namespace Matches

variable (h : K.Matches σ σ')

include h

lemma frame_lt_iff {id : FrameId} : K.frame id < σ'.frames.size ↔ id < σ.frames.size := by
  rw [← Nat.add_zero σ'.frames.size, ← h.next_frame 0, Nat.add_zero,
    K.frame_strictMono.lt_iff_lt]

/-! ### Looking names up -/

lemma get?_eq (hname : name ∉ K.hidden) (id : FrameId) :
    (σ'.frame (K.frame id)).get? (K.name name) =
      ((σ.frame id).get? name).map (Value.relabel K.toRelabelling) := by
  have hname' : K.name name ∉ K.hidden.map K.name := fun hmem => hname (mem_hidden_iff.1 hmem)
  unfold Frame.get?
  rw [← Frame.lookup_filter hname', ← Frame.lookup_filter hname]
  have heq := congrArg (List.lookup (K.name name)) (h.bindings_eq id)
  rw [Renaming.binding, Frame.lookup_map K.name_injective] at heq
  exact heq

/-- A name that is not hidden means corresponding values in corresponding scopes. -/
lemma lookup?_eq (hname : name ∉ K.hidden) (scope : Scope) :
    σ'.lookup? (K.scope scope) (K.name name) =
      (σ.lookup? scope name).map (Value.relabel K.toRelabelling) := by
  induction scope with
  | root id => rw [K.scope_root, Store.lookup?_root, Store.lookup?_root, h.get?_eq hname]
  | inner id outer ih =>
    rw [K.scope_inner, Store.lookup?_inner, Store.lookup?_inner, h.get?_eq hname, ih, Option.map_or]

lemma avoids_of_lookup? (hname : name ∉ K.hidden) {scope : Scope} {v : Value}
    (hv : σ.lookup? scope name = some v) : v.Avoids K.hidden := by
  obtain ⟨id, -, hmem⟩ := Store.exists_mem_of_lookup? hv
  exact h.avoids id _ (List.mem_filter.2 ⟨hmem, by simpa using hname⟩)

/-! ### Changing the stores -/

/-- Making a closure. -/
lemma newClosure (parameters : List String) (body : Value) (scope : Scope)
    (parameters' : List String) (body' : Value) (scope' : Scope) :
    K.Matches (σ.newClosure parameters body scope).2
      (σ'.newClosure parameters' body' scope').2 where
  next_frame := h.next_frame
  next_stamp k := by
    show K.stamp (σ.stamps + 1 + k) = σ'.stamps + 1 + k
    rw [Nat.add_assoc, h.next_stamp, Nat.add_assoc]
  bindings_eq := h.bindings_eq
  avoids := h.avoids
  aside := h.aside

/-- Making a scope. -/
lemma grow : K.Matches σ.grow σ'.grow where
  next_frame k := by
    rw [Store.size_grow, Store.size_grow, Nat.add_assoc, h.next_frame, Nat.add_assoc]
  next_stamp := h.next_stamp
  bindings_eq id := by
    rw [Store.frame_grow, Store.frame_grow, h.bindings_eq]
  avoids id := by
    rw [Store.frame_grow]
    exact h.avoids id
  aside id hid := by
    rw [Store.frame_grow, h.aside id hid]

/-- Binding a name in a scope and in the scope that corresponds to it. -/
lemma set {v : Value} (hv : name ∉ K.hidden → v.Avoids K.hidden) (scope : Scope) :
    K.Matches (σ.set scope name v)
      (σ'.set (K.scope scope) (K.name name) (v.relabel K.toRelabelling)) where
  next_frame k := by
    rw [Store.size_set, Store.size_set, h.next_frame]
  next_stamp := h.next_stamp
  bindings_eq id := by
    by_cases hid : id = scope.frame ∧ id < σ.frames.size
    · obtain ⟨rfl, hlt⟩ := hid
      have hlt' : (K.scope scope).frame < σ'.frames.size := by
        rwa [K.frame_scope, h.frame_lt_iff]
      rw [Store.frame_set hlt, if_pos rfl, Store.frame_set hlt', if_pos (K.frame_scope _).symm,
        Frame.except_insert, Frame.except_insert, h.bindings_eq, if_congr mem_hidden_iff rfl rfl]
      split
      · rfl
      · rw [Renaming.binding, Frame.map_put K.name_injective]
    · -- Either the frame is another one or the name is not bound at all.
      have hid' : ¬ (K.frame id = (K.scope scope).frame ∧ K.frame id < σ'.frames.size) := by
        rwa [K.frame_scope, K.frame_strictMono.injective.eq_iff, h.frame_lt_iff]
      rw [Store.frame_set_of_not _ _ hid, Store.frame_set_of_not _ _ hid', h.bindings_eq]
  avoids id binding hmem := by
    obtain ⟨hmem, hname⟩ := List.mem_filter.1 hmem
    rcases Store.mem_frame_set _ _ hmem with ⟨-, rfl⟩ | hmem
    · exact hv (by simpa using hname)
    · exact h.avoids id binding (List.mem_filter.2 ⟨hmem, hname⟩)
  aside id hid := by
    have hne : id ≠ (K.scope scope).frame := fun heq =>
      hid ⟨scope.frame, by rw [heq, K.frame_scope]⟩
    rw [Store.frame_set_of_ne _ _ hne, h.aside id hid]

omit h in
lemma setAll {bindings : List (String × Value)}
    (hv : ∀ binding ∈ bindings, binding.2.Avoids K.hidden) (scope : Scope)
    (h : K.Matches σ σ') :
    K.Matches (σ.setAll scope bindings)
      (σ'.setAll (K.scope scope) (bindings.map K.binding)) := by
  induction bindings generalizing σ σ' with
  | nil => exact h
  | cons binding rest ih =>
    obtain ⟨hfirst, hrest⟩ := List.forall_mem_cons.1 hv
    exact ih hrest (h.set (fun _ => hfirst) scope)

lemma nextScope (outer : Option Scope) :
    σ'.nextScope (outer.map K.scope) = K.scope (σ.nextScope outer) := by
  have hsize : σ'.frames.size = K.frame σ.frames.size := (h.next_frame 0).symm
  cases outer with
  | none => rw [Store.nextScope, K.scope_root, ← hsize]; rfl
  | some outer => rw [Store.nextScope, K.scope_inner, ← hsize]; rfl

/-- Making the scope for the body of a closure that is applied. -/
lemma enter {arguments : List Value} (hv : ∀ v ∈ arguments, v.Avoids K.hidden)
    (parameters : List String) (captured : Scope) :
    K.scope (σ.enter parameters arguments captured).1 =
        (σ'.enter (parameters.map K.name) (arguments.map (Value.relabel K.toRelabelling))
          (K.scope captured)).1 ∧
      K.Matches (σ.enter parameters arguments captured).2
        (σ'.enter (parameters.map K.name) (arguments.map (Value.relabel K.toRelabelling))
          (K.scope captured)).2 := by
  have hscope := h.nextScope (some captured)
  refine ⟨hscope.symm, ?_⟩
  have hzip : ∀ binding ∈ parameters.zip arguments, binding.2.Avoids K.hidden :=
    fun binding hmem => hv _ (List.of_mem_zip hmem).2
  have hset := h.grow.setAll hzip (σ.nextScope (some captured))
  rw [← hscope, Renaming.binding, ← List.zip_map] at hset
  exact hset

end Matches

end Correspondence

end MiniLisp
