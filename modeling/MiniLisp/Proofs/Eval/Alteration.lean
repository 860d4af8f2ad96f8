/-
# Which names evaluation alters

Code that can define certain names only leaves the frames that are there as they were, but
for these names.  It does not matter how one knows which names it can define: `P` is any
property of code that goes over to its parts and says so of definitions.  The bodies of
closures need not have it, since they are evaluated in frames of their own.
-/
import MiniLisp.Proofs.Eval.Invariant
import MiniLisp.Proofs.Scope.Correspondence

namespace MiniLisp

/-- The store `σ` has come from `σ₀` by binding certain names and by making frames. -/
structure Store.AltersOnly (σ₀ : Store) (names : List String) (σ : Store) : Prop where
  size_le : σ₀.frames.size ≤ σ.frames.size
  except_eq : ∀ id < σ₀.frames.size, (σ.frame id).except names = (σ₀.frame id).except names

namespace Store.AltersOnly

variable {σ₀ σ : Store} {names : List String}

lemma refl (σ₀ : Store) (names : List String) : σ₀.AltersOnly names σ₀ :=
  ⟨Nat.le_refl _, fun _ _ => rfl⟩

/-- One of the names is bound, or the frame was not there. -/
lemma set (h : σ₀.AltersOnly names σ) {scope : Scope} {name : String}
    (hname : name ∈ names ∨ σ₀.frames.size ≤ scope.frame) (value : Value) :
    σ₀.AltersOnly names (σ.set scope name value) where
  size_le := by
    rw [size_set]
    exact h.size_le
  except_eq := by
    intro id hid
    rw [← h.except_eq id hid]
    by_cases heq : id = scope.frame
    · subst heq
      have hmem := hname.resolve_right (Nat.not_le_of_lt hid)
      rw [frame_set (Nat.lt_of_lt_of_le hid h.size_le), if_pos rfl, Frame.except_insert,
        if_pos hmem]
    · rw [frame_set_of_ne _ _ heq]

lemma newClosure (h : σ₀.AltersOnly names σ) (parameters : List String) (body : Value)
    (scope : Scope) : σ₀.AltersOnly names (σ.newClosure parameters body scope).2 :=
  ⟨h.size_le, h.except_eq⟩

lemma enter (h : σ₀.AltersOnly names σ) (parameters : List String) (arguments : List Value)
    (captured : Scope) : σ₀.AltersOnly names (σ.enter parameters arguments captured).2 where
  size_le := by
    rw [size_enter]
    exact Nat.le_succ_of_le h.size_le
  except_eq := by
    intro id hid
    rw [frame_enter_of_ne _ _ (Nat.ne_of_lt (Nat.lt_of_lt_of_le hid h.size_le)),
      h.except_eq id hid]

end Store.AltersOnly

/-- What is known of code that can define certain names only. -/
structure Value.DefinesOnly (names : List String) (P : Value → Prop) : Prop where
  parts {code part : Value} : P code → part ∈ code.parts → P part
  parameter {name : String} {code : Value} :
    P (SpecialForm.defparameter.code [.symbol name, code]) → name ∈ names
  function {name : String} {parameters : List String} {body : Value} :
    P (definitionCode name parameters body) → name ∈ names

/-- That evaluation alters certain names only. -/
def Invariant.alteration (σ₀ : Store) {names : List String} {P : Value → Prop}
    (hP : Value.DefinesOnly names P) : Invariant where
  store _ σ := σ₀.AltersOnly names σ
  code _ scope code := P code ∨ σ₀.frames.size ≤ scope.frame
  value _ _ := True
  code_append _ h := h
  value_append _ h := h
  code_parts h hpart := h.imp_left fun h => hP.parts h hpart
  value_plain _ _ := trivial
  value_self _ _ := trivial
  value_quoted _ := trivial
  value_lookup _ _ _ := trivial
  store_visited h _ := h
  store_parameter h hcode _ := h.set (hcode.imp_left hP.parameter) _
  store_function h hcode := (h.newClosure _ _ _).set (hcode.imp_left hP.function) _
  store_entered h _ _ := h.enter _ _ _
  code_entered h _ _ := Or.inr h.size_le

/-- Code that can define certain names only alters these names only, in whatever scope. -/
theorem Value.DefinesOnly.evaluate {names : List String} {P : Value → Prop}
    (hP : Value.DefinesOnly names P) {code : Value} (h : P code) (depth : Nat) (scope : Scope)
    (σ : Store) : σ.AltersOnly names (evaluate depth scope code σ).store :=
  ((Invariant.alteration σ hP).respects_evaluate depth [] scope code (Or.inl h) σ
    (.refl σ names)).1

end MiniLisp
