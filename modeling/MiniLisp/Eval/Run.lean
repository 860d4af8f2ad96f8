/-
# Runs

Evaluating changes the store and may fail, and what it changed stays changed when it
fails.  So a run always ends with a store, and beside the value or the error it leaves the
trace of what happened, in order.
-/
import MiniLisp.Eval.Error

namespace MiniLisp

/-- Something that happens during an evaluation. -/
inductive Event where
  /-- The evaluation of code in a scope begins. -/
  | visited (code : Value) (scope : Scope)
  /-- A closure is applied: its body is about to be evaluated in a new scope. -/
  | entered (parameters : List String) (body : Value) (arguments : List Value) (scope : Scope)
  /-- A name was bound to the value of an operand. -/
  | parameterDefined (name : String) (value : Value) (scope : Scope)
  /-- A name was bound to a new function. -/
  | functionDefined (name : String) (parameters : List String) (body : Value) (scope : Scope)
deriving Repr

/-- How an evaluation ended. -/
structure Run (α : Type) where
  /-- The value or the error. -/
  result : Except EvalError α
  /-- The store as it was left. -/
  store : Store
  /-- What happened, in order. -/
  trace : List Event

/-- An evaluation: what it does depends on the store that it finds. -/
def Evaluation (α : Type) : Type := Store → Run α

namespace Evaluation

variable {α β : Type}

/-- The evaluation that does nothing and gives a value. -/
protected def pure (a : α) : Evaluation α := fun σ => ⟨.ok a, σ, []⟩

/-- One evaluation and then, if it gave a value, another one that depends on it. -/
protected def bind (first : Evaluation α) (next : α → Evaluation β) : Evaluation β := fun σ =>
  let run := first σ
  match run.result with
  | .ok a =>
    let rest := next a run.store
    ⟨rest.result, rest.store, run.trace ++ rest.trace⟩
  | .error e => ⟨.error e, run.store, run.trace⟩

instance : Monad Evaluation where
  pure := Evaluation.pure
  bind := Evaluation.bind

/-- The evaluation that does nothing and fails. -/
def fail (e : EvalError) : Evaluation α := fun σ => ⟨.error e, σ, []⟩

/-- The evaluation that does nothing and gives a value or fails. -/
def ofExcept (result : Except EvalError α) : Evaluation α := fun σ => ⟨result, σ, []⟩

/-- Adds an event to the trace. -/
def note (event : Event) : Evaluation Unit := fun σ => ⟨.ok (), σ, [event]⟩

/-- Changes the store. -/
def change (f : Store → Store) : Evaluation Unit := fun σ => ⟨.ok (), f σ, []⟩

/-- Makes something in the store. -/
def make (f : Store → α × Store) : Evaluation α := fun σ => ⟨.ok (f σ).1, (f σ).2, []⟩

/-- What a name means in a scope. -/
def lookup (scope : Scope) (name : String) : Evaluation Value := fun σ =>
  match σ.lookup? scope name with
  | some v => ⟨.ok v, σ, []⟩
  | none => ⟨.error (.unbound name), σ, []⟩

theorem pure_apply (a : α) (σ : Store) : (pure a : Evaluation α) σ = ⟨.ok a, σ, []⟩ := rfl

theorem bind_apply (first : Evaluation α) (next : α → Evaluation β) (σ : Store) :
    (first >>= next) σ =
      match (first σ).result with
      | .ok a =>
        ⟨(next a (first σ).store).result, (next a (first σ).store).store,
          (first σ).trace ++ (next a (first σ).store).trace⟩
      | .error e => ⟨.error e, (first σ).store, (first σ).trace⟩ := rfl

/-- Behind a value the sequence goes on in the store that was left. -/
theorem bind_of_ok {first : Evaluation α} (next : α → Evaluation β) {σ : Store} {a : α}
    (h : (first σ).result = .ok a) :
    (first >>= next) σ =
      ⟨(next a (first σ).store).result, (next a (first σ).store).store,
        (first σ).trace ++ (next a (first σ).store).trace⟩ := by
  rw [bind_apply, h]

/-- Behind an error nothing happens any more. -/
theorem bind_of_error {first : Evaluation α} (next : α → Evaluation β) {σ : Store}
    {e : EvalError} (h : (first σ).result = .error e) :
    (first >>= next) σ = ⟨.error e, (first σ).store, (first σ).trace⟩ := by
  rw [bind_apply, h]

/-- It makes no difference how a sequence of three is put together. -/
protected theorem bind_assoc {γ : Type} (first : Evaluation α) (second : α → Evaluation β)
    (third : β → Evaluation γ) :
    first >>= second >>= third = first >>= fun a => second a >>= third := by
  funext σ
  simp only [bind_apply]
  cases (first σ).result with
  | error e => rfl
  | ok a =>
    cases h : (second a (first σ).store).result <;> simp only [h, List.append_assoc]

end Evaluation

end MiniLisp
