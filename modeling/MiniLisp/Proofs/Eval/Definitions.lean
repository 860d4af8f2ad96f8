/-
# Definitions

A definition that refuses its operands evaluates nothing and binds nothing, even if it cannot show
the operand at fault.  A definition that takes them binds its name in the frame of its own scope,
after all that evaluating the operand does, and changes nothing else; and if the operand fails the
store is left as the operand left it.
-/
import MiniLisp.Proofs.Eval.Footprint

namespace MiniLisp

open Evaluation

/-- A store comes from another one by binding a name in the frame of a scope, in its place or, if
the frame does not have it, at the end. -/
structure Store.Rebinds (σ : Store) (scope : Scope) (name : String) (v : Value) (σ' : Store) :
    Prop where
  size_eq : σ'.frames.size = σ.frames.size
  frame_eq : ∀ id ≠ scope.frame, σ'.frame id = σ.frame id
  names_eq : (σ'.frame scope.frame).names =
    if name ∈ (σ.frame scope.frame).names then (σ.frame scope.frame).names
    else (σ.frame scope.frame).names ++ [name]
  get?_eq : ∀ other, (σ'.frame scope.frame).get? other =
    if other = name then some v else (σ.frame scope.frame).get? other

lemma Store.rebinds_set {σ : Store} {scope : Scope} (h : scope.frame < σ.frames.size)
    (name : String) (v : Value) : σ.Rebinds scope name v (σ.set scope name v) where
  size_eq := size_set σ scope name v
  frame_eq := fun _ hid => frame_set_of_ne σ scope hid name v
  names_eq := by rw [frame_set h, if_pos rfl, Frame.names_insert]
  get?_eq := fun other => by rw [frame_set h, if_pos rfl, Frame.get?_insert]

/-- Frames are made and never taken back. -/
lemma size_le_evaluate (depth : Nat) (scope : Scope) (code : Value) (σ : Store) :
    σ.frames.size ≤ (evaluate depth scope code σ).store.frames.size :=
  (Invariant.respects_evaluate (.footprint σ scope.frame code.defined) depth [] scope code
    (Or.inl ⟨rfl, List.Subset.refl _⟩) σ (.refl σ _ _)).1.size_le

section

variable {depth : Nat} {scope : Scope} {σ : Store} {name : String}

/-- Operands that are refused are not evaluated. -/
lemma evaluate_of_refuses {form : SpecialForm} {operands : List Value} {e : EvalError}
    (h : form.Refuses operands e) :
    evaluate (depth + 1) scope (form.code operands) σ =
      ⟨.error e, σ, [.visited (form.code operands) scope]⟩ := by
  rw [evaluate_succ, evaluateWith_form, h.formWith_eq_fail]
  rfl

/-- If the operand fails nothing more happens. -/
lemma evaluate_defparameter_of_error {code : Value} {e : EvalError}
    (h : (evaluate depth scope code σ).result = .error e) :
    let form := SpecialForm.defparameter.code [.symbol name, code]
    let operand := evaluate depth scope code σ
    evaluate (depth + 1) scope form σ =
      ⟨.error e, operand.store, .visited form scope :: operand.trace⟩ := by
  intro form operand
  rw [evaluate_succ, evaluateWith_form, formWith_defparameter, bind_of_error _ h]

/-- Behind the operand the name is bound to its value. -/
lemma evaluate_defparameter_of_ok {code v : Value}
    (h : (evaluate depth scope code σ).result = .ok v) :
    let form := SpecialForm.defparameter.code [.symbol name, code]
    let operand := evaluate depth scope code σ
    evaluate (depth + 1) scope form σ =
      ⟨.ok (.symbol name), operand.store.set scope name v,
        .visited form scope :: operand.trace ++ [.parameterDefined name v scope]⟩ := by
  intro form operand
  rw [evaluate_succ, evaluateWith_form, formWith_defparameter, bind_of_ok _ h]
  rfl

/-- The name is bound to a new closure over the scope. -/
lemma evaluate_defun (parameters : List String) (body : Value) :
    let form := SpecialForm.defun.code [.symbol name, .list (parameters.map .symbol), body]
    let made := σ.newClosure parameters body scope
    evaluate (depth + 1) scope form σ =
      ⟨.ok (.symbol name), made.2.set scope name made.1,
        [.visited form scope, .functionDefined name parameters body scope]⟩ := by
  intro form made
  rw [evaluate_succ, evaluateWith_form, formWith_defun]

end

/-- **Definitions are all or nothing.**  A definition refuses operands with the error of the first
check that fails, without evaluating anything or changing the store, or they have the one shape
that it takes.  Then, if the operand of a definition of a name fails, so does the definition, with
the store that the operand left.  If it gives a value the name is bound to it in that store, in
the frame of the scope, and this is all that changes.  A definition of a function binds its name
in this way to a new closure with the parameters in order, the body as it is written and the scope
itself.  What is given is the name as a symbol. -/
theorem definitions_are_all_or_nothing (depth : Nat) (scope : Scope) (σ : Store)
    (hscope : scope.frame < σ.frames.size) :
    (∀ (form : SpecialForm) operands e, form.isDefinition → form.Refuses operands e →
      evaluate (depth + 1) scope (form.code operands) σ =
        ⟨.error e, σ, [.visited (form.code operands) scope]⟩) ∧
      (∀ operands, (∃ e, SpecialForm.defparameter.Refuses operands e) ∨
        ∃ name code, operands = [.symbol name, code]) ∧
      (∀ operands, (∃ e, SpecialForm.defun.Refuses operands e) ∨
        ∃ (name : String) (parameters : List String) (body : Value),
          operands = [.symbol name, .list (parameters.map .symbol), body]) ∧
      (∀ name code,
        let operand := evaluate depth scope code σ
        let run :=
          evaluate (depth + 1) scope (SpecialForm.defparameter.code [.symbol name, code]) σ
        (∀ e, operand.result = .error e → run.result = .error e ∧ run.store = operand.store) ∧
          ∀ v, operand.result = .ok v →
            run.result = .ok (.symbol name) ∧
              operand.store.Rebinds scope name v run.store ∧
              run.store.stamps = operand.store.stamps) ∧
      ∀ (name : String) (parameters : List String) (body : Value),
        let run := evaluate (depth + 1) scope
          (SpecialForm.defun.code [.symbol name, .list (parameters.map .symbol), body]) σ
        run.result = .ok (.symbol name) ∧
          σ.Rebinds scope name (.closure σ.stamps parameters body scope) run.store ∧
          run.store.stamps = σ.stamps + 1 := by
  refine ⟨fun form operands e _ h => evaluate_of_refuses h, fun operands => ?_,
    fun operands => ?_, fun name code => ⟨fun e h => ?_, fun v h => ?_⟩,
    fun name parameters body => ?_⟩
  · rcases SpecialForm.takes_or_refuses .defparameter operands with htakes | hrefuses
    · cases htakes with
      | defparameter name code => exact Or.inr ⟨name, code, rfl⟩
    · exact Or.inl hrefuses
  · rcases SpecialForm.takes_or_refuses .defun operands with htakes | hrefuses
    · cases htakes with
      | defun name parameters body => exact Or.inr ⟨name, parameters, body, rfl⟩
    · exact Or.inl hrefuses
  · rw [evaluate_defparameter_of_error h]
    exact ⟨rfl, rfl⟩
  · have hframe := Nat.lt_of_lt_of_le hscope (size_le_evaluate depth scope code σ)
    rw [evaluate_defparameter_of_ok h]
    exact ⟨rfl, Store.rebinds_set hframe name v, rfl⟩
  · -- A new closure changes no frame.
    obtain ⟨hsize, hframe, hnames, hget⟩ :=
      Store.rebinds_set (σ := (σ.newClosure parameters body scope).2) hscope name
        (σ.newClosure parameters body scope).1
    rw [evaluate_defun]
    exact ⟨rfl, ⟨hsize, hframe, hnames, hget⟩, rfl⟩

/-- The operand of a definition binds the same name and then fails; the parameters of another
one cannot be shown; and a third one is well formed. -/
theorem definitions_are_all_or_nothing_midway :
    let root : Scope := .root 0
    let σ := Store.empty.newDefault.2
    let operand : Value :=
      .list [.symbol "+", SpecialForm.defparameter.code [.symbol "x", .t], .symbol "y"]
    let failing := evaluate 4 root (SpecialForm.defparameter.code [.symbol "x", operand]) σ
    let hidden := SpecialForm.defun.code [.symbol "f", .list [.symbol "p", .foreign], .t]
    let defining := evaluate 4 root (SpecialForm.defparameter.code [.symbol "x", .t]) σ
    root.frame < σ.frames.size ∧
      failing.result = .error (.unbound "y") ∧
      failing.store = (evaluate 3 root operand σ).store ∧
      evaluate 4 root hidden σ = ⟨.error .undisplayable, σ, [.visited hidden root]⟩ ∧
      defining.result = .ok (.symbol "x") ∧ σ.Rebinds root "x" .t defining.store := by
  intro root σ operand failing hidden defining
  have hroot : root.frame < σ.frames.size := by
    rw [Store.size_newDefault]
    exact Nat.zero_lt_one
  obtain ⟨hrefused, -, -, hparameter, -⟩ := definitions_are_all_or_nothing 3 root σ hroot
  obtain ⟨hresult, hstore⟩ := (hparameter "x" operand).1 (.unbound "y") rfl
  obtain ⟨hdefined, hrebinds, -⟩ := (hparameter "x" .t).2 .t rfl
  refine ⟨hroot, hresult, hstore, hrefused .defun _ _ rfl (.parameters ?_), hdefined, hrebinds⟩
  rintro (_ | ⟨name, _ | ⟨other, rest⟩⟩) <;> simp

end MiniLisp
