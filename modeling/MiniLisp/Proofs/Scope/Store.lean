/-
# What the operations on a store change

Binding a name changes one frame, and making a scope changes none.  These are the facts
about `set`, `setAll`, `grow` and `enter` that say which frames they leave alone, how many
frames there are afterwards, and which bindings a changed frame can have.
-/
import Mathlib.Tactic.Lemma
import MiniLisp.Scope.Builtins

namespace MiniLisp

namespace Frame

lemma mem_put {name : String} {value : Value} {bindings : List (String × Value)}
    {binding : String × Value} (h : binding ∈ put name value bindings) :
    binding = (name, value) ∨ binding ∈ bindings := by
  induction bindings with
  | nil => exact Or.inl (List.mem_singleton.1 h)
  | cons first rest ih =>
    obtain ⟨other, old⟩ := first
    rw [put] at h
    split at h
    · rename_i heq
      rcases List.mem_cons.1 h with rfl | h
      · exact Or.inl (by rw [heq])
      · exact Or.inr (List.mem_cons_of_mem _ h)
    · rcases List.mem_cons.1 h with rfl | h
      · exact Or.inr List.mem_cons_self
      · exact (ih h).imp id (List.mem_cons_of_mem _)

/-- A binding of a frame in which a name was bound is the new one or an old one. -/
lemma mem_bindings_insert {frame : Frame} {name : String} {value : Value}
    {binding : String × Value} (h : binding ∈ (frame.insert name value).bindings) :
    binding = (name, value) ∨ binding ∈ frame.bindings :=
  mem_put h

lemma names_prefix_names_insert (frame : Frame) (name : String) (value : Value) :
    frame.names <+: (frame.insert name value).names := by
  rw [names_insert]
  split
  · exact List.prefix_refl _
  · exact List.prefix_append _ _

lemma mem_bindings_of_get? {frame : Frame} {name : String} {value : Value}
    (h : frame.get? name = some value) : (name, value) ∈ frame.bindings := by
  obtain ⟨before, after, heq, -⟩ := List.lookup_eq_some_iff.1 h
  rw [heq]
  exact List.mem_append_right _ List.mem_cons_self

/-- The bindings from the start are those that are listed, since no name is listed twice. -/
lemma bindings_builtins : builtins.bindings = ("t", .t) ::
    [Native.add, .sub, .mul, .div, .lt, .le, .numberp].map fun f => (f.name, .native f) := rfl

/-- The values that are bound from the start are the true value and the native functions. -/
lemma of_mem_builtins {P : Value → Prop} (ht : P .t) (hnative : ∀ f, P (.native f)) :
    ∀ binding ∈ builtins.bindings, P binding.2 := by
  rw [bindings_builtins]
  refine List.forall_mem_cons.2 ⟨ht, fun binding hbinding => ?_⟩
  obtain ⟨f, -, rfl⟩ := List.mem_map.1 hbinding
  exact hnative f

end Frame

namespace Store

variable (σ : Store) (scope : Scope)

/-! ### The number of frames and of stamps -/

@[simp] lemma size_set (name : String) (value : Value) :
    (σ.set scope name value).frames.size = σ.frames.size :=
  Array.size_modify

@[simp] lemma size_setAll (bindings : List (String × Value)) :
    (σ.setAll scope bindings).frames.size = σ.frames.size := by
  induction bindings generalizing σ with
  | nil => rfl
  | cons binding rest ih => rw [setAll, ih, size_set]

@[simp] lemma size_grow : σ.grow.frames.size = σ.frames.size + 1 :=
  Array.size_push _

@[simp] lemma size_enter (parameters : List String) (arguments : List Value) :
    (σ.enter parameters arguments scope).2.frames.size = σ.frames.size + 1 :=
  (size_setAll _ _ _).trans (size_grow σ)

@[simp] lemma stamps_set (name : String) (value : Value) :
    (σ.set scope name value).stamps = σ.stamps := rfl

@[simp] lemma size_newClosure (parameters : List String) (body : Value) :
    (σ.newClosure parameters body scope).2.frames.size = σ.frames.size := rfl

@[simp] lemma stamps_newClosure (parameters : List String) (body : Value) :
    (σ.newClosure parameters body scope).2.stamps = σ.stamps + 1 := rfl

@[simp] lemma stamps_setAll (bindings : List (String × Value)) :
    (σ.setAll scope bindings).stamps = σ.stamps := by
  induction bindings generalizing σ with
  | nil => rfl
  | cons binding rest ih => exact ih _

@[simp] lemma stamps_enter (parameters : List String) (arguments : List Value) :
    (σ.enter parameters arguments scope).2.stamps = σ.stamps :=
  stamps_setAll _ _ _

@[simp] lemma enter_fst (parameters : List String) (arguments : List Value) :
    (σ.enter parameters arguments scope).1 = .inner σ.frames.size scope := rfl

/-! ### The scope that is made next -/

@[simp] lemma frame_nextScope (outer : Option Scope) :
    (σ.nextScope outer).frame = σ.frames.size := by
  cases outer <;> rfl

@[simp] lemma outer?_nextScope (outer : Option Scope) :
    (σ.nextScope outer).outer? = outer := by
  cases outer <;> rfl

/-! ### Frames that stay as they are -/

lemma frame_set_of_ne {id : FrameId} (h : id ≠ scope.frame) (name : String) (value : Value) :
    (σ.set scope name value).frame id = σ.frame id := by
  rw [frame, set, Array.getElem?_modify, if_neg (Ne.symm h), frame]

lemma frame_set_of_not {id : FrameId} {name : String} {value : Value}
    (h : ¬ (id = scope.frame ∧ id < σ.frames.size)) :
    (σ.set scope name value).frame id = σ.frame id := by
  by_cases hid : id = scope.frame
  · have hsize := Nat.le_of_not_lt fun hlt => h ⟨hid, hlt⟩
    rw [frame, frame, Array.getElem?_eq_none hsize,
      Array.getElem?_eq_none (by rwa [size_set])]
  · exact frame_set_of_ne _ _ hid _ _

lemma frame_setAll_of_ne {id : FrameId} (h : id ≠ scope.frame)
    (bindings : List (String × Value)) :
    (σ.setAll scope bindings).frame id = σ.frame id := by
  induction bindings generalizing σ with
  | nil => rfl
  | cons binding rest ih => rw [setAll, ih, frame_set_of_ne _ _ h]

lemma frame_enter_of_ne {id : FrameId} (h : id ≠ σ.frames.size) (parameters : List String)
    (arguments : List Value) :
    (σ.enter parameters arguments scope).2.frame id = σ.frame id :=
  (frame_setAll_of_ne _ _ h _).trans (frame_grow σ id)

lemma frame_of_size_le {id : FrameId} (h : σ.frames.size ≤ id) : σ.frame id = .empty := by
  rw [frame, Array.getElem?_eq_none h]
  rfl

/-! ### Bindings of frames that change -/

lemma mem_frame_set {id : FrameId} {name : String} {value : Value} {binding : String × Value}
    (h : binding ∈ ((σ.set scope name value).frame id).bindings) :
    (id = scope.frame ∧ binding = (name, value)) ∨ binding ∈ (σ.frame id).bindings := by
  by_cases hid : id = scope.frame
  · by_cases hlt : scope.frame < σ.frames.size
    · rw [frame_set hlt, if_pos hid] at h
      exact (Frame.mem_bindings_insert h).imp_left fun heq => ⟨hid, heq⟩
    · rw [hid, frame_of_size_le _ (by rw [size_set]; exact Nat.le_of_not_lt hlt)] at h
      cases h
  · rw [frame_set_of_ne _ _ hid] at h
    exact Or.inr h

lemma mem_frame_setAll {id : FrameId} {bindings : List (String × Value)}
    {binding : String × Value} (h : binding ∈ ((σ.setAll scope bindings).frame id).bindings) :
    (id = scope.frame ∧ binding ∈ bindings) ∨ binding ∈ (σ.frame id).bindings := by
  induction bindings generalizing σ with
  | nil => exact Or.inr h
  | cons first rest ih =>
    rcases ih _ h with ⟨hid, hmem⟩ | h
    · exact Or.inl ⟨hid, List.mem_cons_of_mem _ hmem⟩
    · rcases mem_frame_set _ _ h with ⟨hid, rfl⟩ | h
      · exact Or.inl ⟨hid, List.mem_cons_self⟩
      · exact Or.inr h

/-- A name that is bound in a frame means its value there, and nothing else changes. -/
lemma get?_frame_set {id : FrameId} {name other : String} {value : Value}
    (hscope : scope.frame < σ.frames.size) :
    ((σ.set scope name value).frame id).get? other =
      if (scope.frame, name) = (id, other) then some value else (σ.frame id).get? other := by
  rw [frame_set hscope]
  by_cases hid : id = scope.frame
  · rw [if_pos hid, Frame.get?_insert]
    simp only [hid, Prod.mk.injEq, true_and, eq_comm]
  · rw [if_neg hid, if_neg fun heq => hid (Prod.mk.inj heq).1.symm]

/-- A frame in which something is bound was made. -/
lemma lt_size_of_get? {id : FrameId} {name : String} {value : Value}
    (h : (σ.frame id).get? name = some value) : id < σ.frames.size := by
  refine Nat.lt_of_not_le fun hid => ?_
  rw [frame_of_size_le σ hid, Frame.get?_empty] at h
  cases h

/-- Of several values for one name the last one stays. -/
lemma get?_frame_setAll (hscope : scope.frame < σ.frames.size)
    (bindings : List (String × Value)) (name : String) :
    ((σ.setAll scope bindings).frame scope.frame).get? name =
      (bindings.reverse.lookup name).or ((σ.frame scope.frame).get? name) := by
  induction bindings generalizing σ with
  | nil => rfl
  | cons binding rest ih =>
    obtain ⟨other, value⟩ := binding
    rw [setAll, ih _ (by rwa [size_set]), frame_set hscope, if_pos rfl, Frame.get?_insert,
      List.reverse_cons, List.lookup_append, Option.or_assoc, Frame.lookup_cons_ite]
    congr 1
    split <;> rfl

/-- What a name means in the frame of an applied closure. -/
lemma get?_frame_enter (parameters : List String) (arguments : List Value) (name : String) :
    ((σ.enter parameters arguments scope).2.frame σ.frames.size).get? name =
      (parameters.zip arguments).reverse.lookup name := by
  have hlt : (σ.nextScope (some scope)).frame < σ.grow.frames.size := by
    rw [size_grow]
    exact Nat.lt_succ_self _
  have hempty : σ.frame (σ.nextScope (some scope)).frame = .empty :=
    frame_of_size_le _ (Nat.le_refl _)
  have hget := get?_frame_setAll σ.grow (σ.nextScope (some scope)) hlt
    (parameters.zip arguments) name
  rw [frame_grow, hempty, Frame.get?_empty, Option.or_none] at hget
  exact hget

/-- The bindings of the scope of an applied closure are parameters with their arguments. -/
lemma mem_frame_enter {id : FrameId} {parameters : List String} {arguments : List Value}
    {binding : String × Value}
    (h : binding ∈ ((σ.enter parameters arguments scope).2.frame id).bindings) :
    (id = σ.frames.size ∧ binding.1 ∈ parameters ∧ binding.2 ∈ arguments) ∨
      binding ∈ (σ.frame id).bindings := by
  rcases mem_frame_setAll _ _ h with ⟨hid, hmem⟩ | h
  · exact Or.inl ⟨hid, List.of_mem_zip hmem⟩
  · rw [frame_grow] at h
    exact Or.inr h

variable {σ scope}

/-- What a name means in a scope is bound in a frame of the scope. -/
lemma exists_mem_of_lookup? {name : String} {value : Value}
    (h : σ.lookup? scope name = some value) :
    ∃ id ∈ scope.frames, (name, value) ∈ (σ.frame id).bindings := by
  induction scope with
  | root id =>
    rw [lookup?_root] at h
    exact ⟨id, List.mem_singleton.2 rfl, Frame.mem_bindings_of_get? h⟩
  | inner id outer ih =>
    rw [lookup?_inner, Option.or_eq_some_iff] at h
    rcases h with h | ⟨-, h⟩
    · exact ⟨id, List.mem_cons_self, Frame.mem_bindings_of_get? h⟩
    · obtain ⟨owner, howner, hmem⟩ := ih h
      exact ⟨owner, List.mem_cons_of_mem _ howner, hmem⟩

/-! ### The start -/

lemma size_newDefault : empty.newDefault.2.frames.size = 1 :=
  (size_setAll _ _ _).trans (size_grow _)

/-- At the start nothing is bound but what is bound from the start. -/
lemma mem_builtins_of_mem_newDefault {id : FrameId} {binding : String × Value}
    (h : binding ∈ (empty.newDefault.2.frame id).bindings) :
    binding ∈ Frame.builtins.bindings := by
  rcases mem_frame_setAll _ _ h with ⟨-, h⟩ | h
  · exact h
  · rw [frame_grow, frame_of_size_le _ (Nat.zero_le _)] at h
    cases h

/-! ### What is bound -/

/-- All values that are bound in the store have a property. -/
def Binds (P : Value → Prop) (σ : Store) : Prop :=
  ∀ id, ∀ binding ∈ (σ.frame id).bindings, P binding.2

namespace Binds

variable {P Q : Value → Prop} (h : σ.Binds P)

include h

lemma mono (hPQ : ∀ v, P v → Q v) : σ.Binds Q :=
  fun id binding hmem => hPQ _ (h id binding hmem)

lemma of_lookup? {name : String} {v : Value} (hv : σ.lookup? scope name = some v) : P v := by
  obtain ⟨id, -, hmem⟩ := exists_mem_of_lookup? hv
  exact h id _ hmem

lemma set {v : Value} (hv : P v) (scope : Scope) (name : String) :
    (σ.set scope name v).Binds P := by
  intro id binding hmem
  rcases mem_frame_set _ _ hmem with ⟨-, rfl⟩ | hmem
  · exact hv
  · exact h id binding hmem

lemma setAll {writes : List (String × Value)} (hwrites : ∀ write ∈ writes, P write.2)
    (scope : Scope) : (σ.setAll scope writes).Binds P := by
  intro id binding hmem
  rcases mem_frame_setAll _ _ hmem with ⟨-, hmem⟩ | hmem
  · exact hwrites binding hmem
  · exact h id binding hmem

lemma grow : σ.grow.Binds P := by
  intro id binding hmem
  rw [frame_grow] at hmem
  exact h id binding hmem

lemma newClosure (parameters : List String) (body : Value) (scope : Scope) :
    (σ.newClosure parameters body scope).2.Binds P := h

lemma enter {arguments : List Value} (hv : ∀ v ∈ arguments, P v) (parameters : List String)
    (captured : Scope) : (σ.enter parameters arguments captured).2.Binds P := by
  intro id binding hmem
  rcases mem_frame_enter _ _ hmem with ⟨-, -, hmem⟩ | hmem
  · exact hv _ hmem
  · exact h id binding hmem

end Binds

/-- Nothing is bound where there are no frames. -/
lemma binds_empty (P : Value → Prop) : empty.Binds P := by
  intro id binding hmem
  rw [frame_of_size_le _ (Nat.zero_le _)] at hmem
  cases hmem

end Store

end MiniLisp
