/-
# The shapes of code

What evaluating does with code depends on its shape: code that evaluates to itself, a
symbol, the empty list, a special form with the operands that it wants, a special form that
refuses its operands, or an application.  This file says what evaluation is for each shape,
so that a proof about evaluation is a case analysis on `Shape` and need not open the
definitions again.

It also says which parts of code are evaluated with it in the same scope (`parts`) and which
names it may bind there (`defined`).  What is quoted and the body of a function definition
are not among the parts.
-/
import MiniLisp.Proofs.Eval.Refusal

namespace MiniLisp

open Evaluation

/-- The code of a special form with some operands. -/
def SpecialForm.code (form : SpecialForm) (operands : List Value) : Value :=
  .list (.symbol form.name :: operands)

/-- The code of a function definition. -/
def definitionCode (name : String) (parameters : List String) (body : Value) : Value :=
  SpecialForm.defun.code [.symbol name, .list (parameters.map .symbol), body]

lemma formOf?_eq_some_iff {head : Value} {form : SpecialForm} :
    formOf? head = some form ↔ head = .symbol form.name := by
  constructor
  · intro h
    cases head with
    | symbol name => rw [SpecialForm.ofName?_eq_some_iff.1 h]
    | _ => simp [formOf?] at h
  · rintro rfl
    exact SpecialForm.ofName?_eq_some_iff.2 rfl

@[simp] lemma formOf?_name (form : SpecialForm) : formOf? (.symbol form.name) = some form :=
  formOf?_eq_some_iff.2 rfl

namespace Value

/-- Whether code evaluates to itself. -/
def isSelfEvaluating : Value → Bool
  | .symbol _ => false
  | .list _ => false
  | _ => true

/-! ### Evaluated positions -/

/-- The parts of code that are evaluated, if at all, in the scope of the code itself. -/
def parts : Value → List Value
  | .list (head :: operands) =>
    match formOf? head, operands with
    | none, operands => head :: operands
    | some .conditional, [condition, consequent, alternative] =>
      [condition, consequent, alternative]
    | some .defparameter, [_, code] => [code]
    | _, _ => []
  | _ => []

mutual

/-- The names that are defined in evaluated positions of code. -/
def defined : Value → List String
  | .list (head :: operands) =>
    match formOf? head with
    | none => defined head ++ definedAll operands
    | some .quotation => []
    | some .conditional => definedAll operands
    | some .defparameter =>
      match operands with
      | [target, code] => target.symbol?.toList ++ defined code
      | _ => []
    | some .defun =>
      match operands with
      | [target, _, _] => target.symbol?.toList
      | _ => []
  | _ => []

/-- The names that are defined in evaluated positions of some codes. -/
def definedAll : List Value → List String
  | [] => []
  | code :: codes => defined code ++ definedAll codes

end

lemma definedAll_eq_flatMap (codes : List Value) : definedAll codes = codes.flatMap defined := by
  induction codes with
  | nil => rfl
  | cons code codes ih => rw [definedAll, List.flatMap_cons, ih]

lemma parts_application {head : Value} (h : formOf? head = none) (operands : List Value) :
    parts (.list (head :: operands)) = head :: operands := by
  simp only [parts, h]

@[simp] lemma parts_conditional (condition consequent alternative : Value) :
    parts (SpecialForm.conditional.code [condition, consequent, alternative]) =
      [condition, consequent, alternative] := rfl

@[simp] lemma parts_defparameter (target code : Value) :
    parts (SpecialForm.defparameter.code [target, code]) = [code] := rfl

/-- Where the parts of code can come from. -/
lemma mem_parts {code part : Value} (h : part ∈ code.parts) :
    (∃ head operands, formOf? head = none ∧ code = .list (head :: operands) ∧
        part ∈ head :: operands) ∨
      (∃ operands, code = SpecialForm.conditional.code operands ∧ part ∈ operands) ∨
      ∃ target, code = SpecialForm.defparameter.code [target, part] := by
  unfold parts at h
  split at h
  · rename_i head operands
    split at h
    · rename_i heq
      exact Or.inl ⟨head, _, heq, rfl, h⟩
    · rename_i heq
      rw [formOf?_eq_some_iff.1 heq]
      exact Or.inr (Or.inl ⟨[_, _, _], rfl, h⟩)
    · rename_i heq
      rw [formOf?_eq_some_iff.1 heq, List.mem_singleton.1 h]
      exact Or.inr (Or.inr ⟨_, rfl⟩)
    · cases h
  · cases h

lemma defined_application {head : Value} (h : formOf? head = none) (operands : List Value) :
    defined (.list (head :: operands)) = (head :: operands).flatMap defined := by
  rw [defined.eq_def, List.flatMap_cons, ← definedAll_eq_flatMap]
  simp only [h]

lemma defined_conditional (operands : List Value) :
    defined (SpecialForm.conditional.code operands) = operands.flatMap defined :=
  definedAll_eq_flatMap operands

@[simp] lemma defined_defparameter (target code : Value) :
    defined (SpecialForm.defparameter.code [target, code]) =
      target.symbol?.toList ++ code.defined := rfl

@[simp] lemma defined_definitionCode (name : String) (parameters : List String) (body : Value) :
    defined (definitionCode name parameters body) = [name] := rfl

/-- What a part of code defines the code defines. -/
lemma defined_subset_of_mem_parts {code part : Value} (h : part ∈ code.parts) :
    part.defined ⊆ code.defined := by
  intro name hname
  rcases mem_parts h with ⟨head, operands, hhead, rfl, hmem⟩ | ⟨operands, rfl, hmem⟩ |
    ⟨target, rfl⟩
  · rw [defined_application hhead]
    exact List.mem_flatMap.2 ⟨part, hmem, hname⟩
  · rw [defined_conditional]
    exact List.mem_flatMap.2 ⟨part, hmem, hname⟩
  · rw [defined_defparameter]
    exact List.mem_append_right _ hname

end Value

/-! ### Shapes -/

/-- The shapes of code. -/
inductive Shape : Value → Prop
  /-- Code that evaluates to itself. -/
  | self {code : Value} (h : code.isSelfEvaluating) : Shape code
  /-- A name. -/
  | symbol (name : String) : Shape (.symbol name)
  /-- The empty list. -/
  | unit : Shape (.list [])
  /-- A quotation. -/
  | quotation (datum : Value) : Shape (SpecialForm.quotation.code [datum])
  /-- A conditional. -/
  | conditional (condition consequent alternative : Value) :
    Shape (SpecialForm.conditional.code [condition, consequent, alternative])
  /-- The definition of a name as the value of code. -/
  | defparameter (name : String) (code : Value) :
    Shape (SpecialForm.defparameter.code [.symbol name, code])
  /-- The definition of a function. -/
  | defun (name : String) (parameters : List String) (body : Value) :
    Shape (definitionCode name parameters body)
  /-- A special form that refuses its operands. -/
  | malformed (form : SpecialForm) (operands : List Value) (e : EvalError)
    (h : ∀ evaluate scope, formWith evaluate scope form operands = fail e) :
    Shape (form.code operands)
  /-- An application. -/
  | application (head : Value) (operands : List Value) (h : formOf? head = none) :
    Shape (.list (head :: operands))

/-- All code has one of the shapes. -/
theorem shape (code : Value) : Shape code := by
  match code with
  | .symbol name => exact .symbol name
  | .list [] => exact .unit
  | .list (head :: operands) =>
    cases h : formOf? head with
    | none => exact .application head operands h
    | some form =>
      rw [formOf?_eq_some_iff.1 h]
      rcases form.takes_or_refuses operands with htakes | ⟨e, hrefuses⟩
      · cases htakes with
        | quotation datum => exact .quotation datum
        | conditional condition consequent alternative =>
          exact .conditional condition consequent alternative
        | defparameter name code => exact .defparameter name code
        | defun name parameters body => exact .defun name parameters body
      · exact .malformed form operands e hrefuses.formWith_eq_fail
  | .number _ | .text _ | .nil | .t | .native _ | .closure .. | .foreign => exact .self rfl

/-! ### Evaluation by shape -/

section

variable (evaluate : Evaluator) (scope : Scope)

lemma evaluateWith_self {code : Value} (h : code.isSelfEvaluating) :
    evaluateWith evaluate scope code = pure code := by
  cases code with
  | symbol name => cases h
  | list items => cases h
  | _ => rfl

lemma evaluateWith_form (form : SpecialForm) (operands : List Value) :
    evaluateWith evaluate scope (form.code operands) =
      formWith evaluate scope form operands := by
  rw [SpecialForm.code, evaluateWith, formOf?_name]

lemma evaluateWith_application {head : Value} (operands : List Value) (h : formOf? head = none) :
    evaluateWith evaluate scope (.list (head :: operands)) = (do
      let f ← evaluate scope head
      let arguments ← evaluateEach evaluate scope operands
      applyWith evaluate f arguments) := by
  rw [evaluateWith, h]

/-- The elements of an application are evaluated one after another, the head first. -/
lemma evaluateWith_application_eq_each {head : Value} (operands : List Value)
    (h : formOf? head = none) :
    evaluateWith evaluate scope (.list (head :: operands)) = (do
      let vs ← evaluateEach evaluate scope (head :: operands)
      applyWith evaluate (vs.headD .nil) vs.tail) := by
  rw [evaluateWith_application evaluate scope operands h, evaluateEach, Evaluation.bind_assoc]
  simp only [Evaluation.bind_assoc]
  rfl

/-- A definition of a name evaluates the operand, binds the name and says so. -/
lemma formWith_defparameter (name : String) (code : Value) :
    formWith evaluate scope .defparameter [.symbol name, code] = (do
      let value ← evaluate scope code
      change (·.set scope name value)
      note (.parameterDefined name value scope)
      pure (.symbol name)) := rfl

/-- A definition of a function makes a closure over the scope, binds the name and says so. -/
lemma formWith_defun (name : String) (parameters : List String) (body : Value) (σ : Store) :
    formWith evaluate scope .defun [.symbol name, .list (parameters.map .symbol), body] σ =
      ⟨.ok (.symbol name),
        (σ.newClosure parameters body scope).2.set scope name
          (σ.newClosure parameters body scope).1,
        [.functionDefined name parameters body scope]⟩ := by
  rw [formWith, parametersOf_eq_ok_iff.2 rfl]
  rfl

/-- An applied closure makes a scope, says so and evaluates its body there. -/
lemma applyWith_closure (stamp : Nat) (parameters : List String) (body : Value)
    (captured : Scope) (arguments : List Value) (σ : Store) :
    applyWith evaluate (.closure stamp parameters body captured) arguments σ =
      let entered := σ.enter parameters arguments captured
      let run := evaluate entered.1 body entered.2
      ⟨run.result, run.store, .entered parameters body arguments entered.1 :: run.trace⟩ := by
  simp only [applyWith, make, note, bind_apply]
  cases (evaluate (σ.enter parameters arguments captured).1 body
    (σ.enter parameters arguments captured).2).result <;> rfl

/-- Evaluating code says so and then does what the shape of the code says. -/
lemma evaluate_succ (depth : Nat) (code : Value) (σ : Store) :
    MiniLisp.evaluate (depth + 1) scope code σ =
      let run := evaluateWith (MiniLisp.evaluate depth) scope code σ
      ⟨run.result, run.store, .visited code scope :: run.trace⟩ := rfl

end

end MiniLisp
