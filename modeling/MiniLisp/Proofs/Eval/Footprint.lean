/-
# What evaluation leaves alone

Code binds names in the scope that it is evaluated in and in no other scope that was there
before.  What a function body binds goes to the scope made for the call, and it does not
matter in which scopes the closures were made, what is redefined meanwhile and whether the
evaluation ends with an error.

The invariant is relative to the store `σ₀` at the start and to one frame, the home of the
code.  Code at home may define certain names only, and all other code has its home among
the frames made since.
-/
import MiniLisp.Proofs.Eval.Invariant
import MiniLisp.Proofs.Scope.Store

namespace MiniLisp

/-- One frame has grown from another by binding certain names at most: new names stand at
the end, and all other names mean what they meant. -/
structure Frame.GrownBy (names : List String) (old new : Frame) : Prop where
  names_prefix : old.names <+: new.names
  get?_eq : ∀ name ∉ names, new.get? name = old.get? name

namespace Frame.GrownBy

variable {names : List String} {old new : Frame}

lemma refl (names : List String) (frame : Frame) : GrownBy names frame frame :=
  ⟨List.prefix_refl _, fun _ _ => rfl⟩

lemma insert (h : GrownBy names old new) {name : String} (hname : name ∈ names)
    (value : Value) : GrownBy names old (new.insert name value) where
  names_prefix := h.names_prefix.trans (names_prefix_names_insert new name value)
  get?_eq := by
    intro other hother
    have hne : other ≠ name := fun heq => hother (heq ▸ hname)
    rw [get?_insert, if_neg hne, h.get?_eq other hother]

end Frame.GrownBy

/-- The store `σ` has come from `σ₀` by binding certain names in the home frame and by
making frames. -/
structure Store.Spares (σ₀ : Store) (home : FrameId) (names : List String) (σ : Store) :
    Prop where
  size_le : σ₀.frames.size ≤ σ.frames.size
  frame_eq : ∀ id < σ₀.frames.size, id ≠ home → σ.frame id = σ₀.frame id
  home_grown : home < σ₀.frames.size → (σ₀.frame home).GrownBy names (σ.frame home)

/-- Code that has the home frame defines certain names only, and other code has a frame
that was not there at the start. -/
def Scope.Confines (σ₀ : Store) (home : FrameId) (names : List String) (scope : Scope)
    (code : Value) : Prop :=
  (scope.frame = home ∧ code.defined ⊆ names) ∨ σ₀.frames.size ≤ scope.frame

namespace Store.Spares

variable {σ₀ σ : Store} {home : FrameId} {names : List String} {scope : Scope}

lemma refl (σ₀ : Store) (home : FrameId) (names : List String) : Spares σ₀ home names σ₀ where
  size_le := Nat.le_refl _
  frame_eq := fun _ _ _ => rfl
  home_grown := fun _ => .refl names _

lemma set_home (h : Spares σ₀ home names σ) (hscope : scope.frame = home) {name : String}
    (hname : name ∈ names) (value : Value) : Spares σ₀ home names (σ.set scope name value) where
  size_le := by
    rw [size_set]
    exact h.size_le
  frame_eq := by
    intro id hid hne
    rw [frame_set_of_ne _ _ (hscope ▸ hne), h.frame_eq id hid hne]
  home_grown := by
    intro hhome
    have hlt : scope.frame < σ.frames.size := hscope ▸ Nat.lt_of_lt_of_le hhome h.size_le
    -- The home frame is in the store, so the name is bound there.
    rw [frame_set hlt, if_pos hscope.symm]
    exact (h.home_grown hhome).insert hname value

lemma set_new (h : Spares σ₀ home names σ) (hscope : σ₀.frames.size ≤ scope.frame)
    (name : String) (value : Value) : Spares σ₀ home names (σ.set scope name value) where
  size_le := by
    rw [size_set]
    exact h.size_le
  frame_eq := by
    intro id hid hne
    rw [frame_set_of_ne _ _ (Nat.ne_of_lt (Nat.lt_of_lt_of_le hid hscope)),
      h.frame_eq id hid hne]
  home_grown := by
    intro hhome
    rw [frame_set_of_ne _ _ (Nat.ne_of_lt (Nat.lt_of_lt_of_le hhome hscope))]
    exact h.home_grown hhome

lemma set (h : Spares σ₀ home names σ) {code : Value} {name : String}
    (hscope : scope.Confines σ₀ home names code) (hname : name ∈ code.defined)
    (value : Value) : Spares σ₀ home names (σ.set scope name value) := by
  rcases hscope with ⟨hhome, hdefined⟩ | hnew
  · exact h.set_home hhome (hdefined hname) value
  · exact h.set_new hnew name value

lemma newClosure (h : Spares σ₀ home names σ) (parameters : List String) (body : Value)
    (captured : Scope) :
    Spares σ₀ home names (σ.newClosure parameters body captured).2 :=
  ⟨h.size_le, h.frame_eq, h.home_grown⟩

lemma enter (h : Spares σ₀ home names σ) (parameters : List String) (arguments : List Value)
    (captured : Scope) : Spares σ₀ home names (σ.enter parameters arguments captured).2 where
  size_le := by
    rw [size_enter]
    exact Nat.le_succ_of_le h.size_le
  frame_eq := by
    intro id hid hne
    rw [frame_enter_of_ne _ _ (Nat.ne_of_lt (Nat.lt_of_lt_of_le hid h.size_le)),
      h.frame_eq id hid hne]
  home_grown := by
    intro hhome
    rw [frame_enter_of_ne _ _ (Nat.ne_of_lt (Nat.lt_of_lt_of_le hhome h.size_le))]
    exact h.home_grown hhome

end Store.Spares

/-- That evaluation spares the frames other than the home frame. -/
def Invariant.footprint (σ₀ : Store) (home : FrameId) (names : List String) : Invariant where
  store _ σ := σ₀.Spares home names σ
  code _ scope code := scope.Confines σ₀ home names code
  value _ _ := True
  code_append _ h := h
  value_append _ h := h
  code_parts h hpart := h.imp_left fun ⟨hhome, hdefined⟩ =>
    ⟨hhome, fun _ hname => hdefined (Value.defined_subset_of_mem_parts hpart hname)⟩
  value_plain _ _ := trivial
  value_self _ _ := trivial
  value_quoted _ := trivial
  value_lookup _ _ _ := trivial
  store_visited h _ := h
  store_parameter h hcode _ := h.set hcode (by simp) _
  store_function h hcode := (h.newClosure _ _ _).set hcode (by simp) _
  store_entered h _ _ := h.enter _ _ _
  code_entered h _ _ := Or.inr h.size_le

/-- **Evaluation binds names in its own scope only.**  Whatever code is evaluated in a scope
of the store, to whatever depth and whether it gives a value or fails: the scopes that were
there before are still there, each but the scope of the code with the bindings that it had;
in the scope of the code names are added at the end only, and no name changes what it means
there but those that the code defines in evaluated positions.  An application changes no
scope that was there before it.

The scope outside a scope is part of the scope itself, so there is nothing to change about
it. -/
theorem evaluate_binds_at_home (depth : Nat) (σ : Store) (scope : Scope) (code : Value)
    (hscope : scope.frame < σ.frames.size) :
    let after := (evaluate depth scope code σ).store
    σ.frames.size ≤ after.frames.size ∧
      (∀ other : Scope, other.frame < σ.frames.size → other.frame ≠ scope.frame →
        after.frame other.frame = σ.frame other.frame) ∧
      (σ.frame scope.frame).names <+: (after.frame scope.frame).names ∧
      (∀ name ∉ code.defined,
        (after.frame scope.frame).get? name = (σ.frame scope.frame).get? name) ∧
      ∀ (f : Value) (arguments : List Value) (other : Scope), other.frame < σ.frames.size →
        (apply depth f arguments σ).store.frame other.frame = σ.frame other.frame := by
  intro after
  -- At home nothing has been bound yet, and the code defines what it defines.
  have hspares : σ.Spares scope.frame code.defined after :=
    (Invariant.respects_evaluate (.footprint σ scope.frame code.defined) depth [] scope code
      (Or.inl ⟨rfl, List.Subset.refl _⟩) σ (.refl σ _ _)).1
  have hgrown := hspares.home_grown hscope
  refine ⟨hspares.size_le, fun other => hspares.frame_eq other.frame, hgrown.names_prefix,
    hgrown.get?_eq, ?_⟩
  intro f arguments other hother
  -- No frame of the store is home to the body of the function that is applied.
  have hkeeps : Invariant.Keeps (.footprint σ σ.frames.size []) [] (apply depth f arguments) _ :=
    Invariant.keeps_apply _ depth trivial fun _ _ => trivial
  have happly : σ.Spares σ.frames.size [] (apply depth f arguments σ).store :=
    (hkeeps σ (.refl σ _ _)).1
  exact happly.frame_eq other.frame hother (Nat.ne_of_lt hother)

/-- A call binds nothing in the scope of the caller, though the body of the function defines
a name. -/
theorem call_binds_nothing_at_home :
    let body := SpecialForm.defparameter.code [.symbol "y", .symbol "x"]
    let σ := (evaluate 2 (.root 0) (definitionCode "f" ["x"] body) Store.empty.newDefault.2).store
    let after := (evaluate 3 (.root 0) (.list [.symbol "f", .t]) σ).store
    0 < σ.frames.size ∧ (after.frame 0).get? "y" = (σ.frame 0).get? "y" := by
  intro body σ after
  have hscope : Scope.frame (.root 0) < σ.frames.size := by decide +kernel
  have hdefined : "y" ∉ Value.defined (.list [.symbol "f", .t]) := by decide +kernel
  obtain ⟨-, -, -, hother, -⟩ := evaluate_binds_at_home 3 σ (.root 0) _ hscope
  exact ⟨hscope, hother "y" hdefined⟩

end MiniLisp
