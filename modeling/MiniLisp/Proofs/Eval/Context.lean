/-
# Evaluation contexts

An evaluation context is code with a place left open that is evaluated next, once what stands
before it has been evaluated: an element of an application, the condition of a conditional or the
branch that was chosen, the operand of a definition of a name, and such places within each other.

What fails at the open place fails the whole context.  The error and the store are those that the
failing code left, and nothing happens behind it, whatever stands there.  This goes for one layer
of a context, `Layer.evaluateWith_failsAs`, and from there for all of them.  If the code at the
open place applies a closure whose body fails, then the same is true of the body.
-/
import MiniLisp.Proofs.Eval.Shape

namespace MiniLisp

open Evaluation

/-! ### Failing runs -/

/-- A run fails as its last part does: it has a certain error and leaves the store that the last
part leaves, and nothing happens behind it. -/
structure Run.FailsAs {α β : Type} (run : Run α) (e : EvalError) (last : Run β) : Prop where
  result_eq : run.result = .error e
  store_eq : run.store = last.store
  trace_suffix : last.trace <:+ run.trace

namespace Run.FailsAs

variable {α β γ : Type} {e : EvalError} {last : Run γ}

lemma refl {run : Run α} (h : run.result = .error e) : run.FailsAs e run :=
  ⟨h, rfl, List.suffix_refl _⟩

/-- A sequence fails as its first part does. -/
lemma bind {first : Evaluation α} {σ : Store} (h : (first σ).FailsAs e last)
    (next : α → Evaluation β) : ((first >>= next) σ).FailsAs e last := by
  rw [bind_of_error next h.result_eq]
  exact ⟨rfl, h.store_eq, h.trace_suffix⟩

/-- If the first part gives a value a sequence fails as the rest does. -/
lemma of_bind {first : Evaluation α} {next : α → Evaluation β} {σ : Store} {a : α}
    (hfirst : (first σ).result = .ok a) (h : (next a (first σ).store).FailsAs e last) :
    ((first >>= next) σ).FailsAs e last := by
  rw [bind_of_ok next hfirst]
  exact ⟨h.result_eq, h.store_eq, h.trace_suffix.trans (List.suffix_append _ _)⟩

lemma evaluate_succ {depth : Nat} {scope : Scope} {code : Value} {σ : Store}
    (h : (evaluateWith (evaluate depth) scope code σ).FailsAs e last) :
    (evaluate (depth + 1) scope code σ).FailsAs e last := by
  rw [MiniLisp.evaluate_succ]
  exact ⟨h.result_eq, h.store_eq, h.trace_suffix.trans (List.suffix_cons _ _)⟩

end Run.FailsAs

/-! ### Evaluating one after another -/

/-- Codes evaluated from left to right all give values, and lead from one store to another. -/
inductive EvaluatesEach (evaluate : Evaluator) (scope : Scope) :
    List Value → Store → List Value → Store → Prop
  | nil {σ : Store} : EvaluatesEach evaluate scope [] σ [] σ
  | cons {code v : Value} {codes vs : List Value} {σ σ' : Store}
    (hcode : (evaluate scope code σ).result = .ok v)
    (hcodes : EvaluatesEach evaluate scope codes (evaluate scope code σ).store vs σ') :
    EvaluatesEach evaluate scope (code :: codes) σ (v :: vs) σ'

namespace EvaluatesEach

variable {evaluate : Evaluator} {scope : Scope} {codes vs : List Value} {σ σ' : Store}

lemma result_eq_and_store_eq (h : EvaluatesEach evaluate scope codes σ vs σ') :
    (evaluateEach evaluate scope codes σ).result = .ok vs ∧
      (evaluateEach evaluate scope codes σ).store = σ' := by
  induction h with
  | nil => exact ⟨rfl, rfl⟩
  | cons hcode _ ih =>
    rw [evaluateEach, bind_of_ok _ hcode, bind_of_ok _ ih.1]
    exact ⟨rfl, ih.2⟩

/-- What fails behind codes that give values fails them all, whatever stands behind it. -/
lemma failsAs {γ : Type} {code : Value} {e : EvalError} {last : Run γ}
    (hbefore : EvaluatesEach evaluate scope codes σ vs σ')
    (h : (evaluate scope code σ').FailsAs e last) (after : List Value) :
    (evaluateEach evaluate scope (codes ++ code :: after) σ).FailsAs e last := by
  induction hbefore with
  | nil => exact h.bind _
  | cons hcode _ ih => exact .of_bind hcode ((ih h).bind _)

end EvaluatesEach

/-! ### Contexts -/

/-- A layer of a context: code with one place left open. -/
inductive Layer where
  /-- An element of an application, behind some elements and before others. -/
  | element (before after : List Value)
  /-- The condition of a conditional. -/
  | condition (consequent alternative : Value)
  /-- The branch for a condition that is true. -/
  | consequent (condition alternative : Value)
  /-- The branch for a condition that is not true. -/
  | alternative (condition consequent : Value)
  /-- The operand of a definition of a name. -/
  | operand (name : String)

namespace Layer

/-- The layer with code at its open place. -/
def fill : Layer → Value → Value
  | .element before after, code => .list (before ++ code :: after)
  | .condition yes no, code => SpecialForm.conditional.code [code, yes, no]
  | .consequent test no, code => SpecialForm.conditional.code [test, code, no]
  | .alternative test yes, code => SpecialForm.conditional.code [test, yes, code]
  | .operand name, code => SpecialForm.defparameter.code [.symbol name, code]

/-- With the code at its open place the layer is still one of its kind: an application is not
headed by the name of a special form. -/
def Takes : Layer → Value → Prop
  | .element before _, code => formOf? (before.headD code) = none
  | _, _ => True

/-- Evaluation of the layer gets to its open place, from one store to another. -/
inductive Opens (evaluate : Evaluator) (scope : Scope) : Layer → Store → Store → Prop
  | element {before after vs : List Value} {σ σ' : Store}
    (h : EvaluatesEach evaluate scope before σ vs σ') :
    Opens evaluate scope (.element before after) σ σ'
  | condition {consequent alternative : Value} {σ : Store} :
    Opens evaluate scope (.condition consequent alternative) σ σ
  | consequent {condition alternative v : Value} {σ : Store}
    (h : (evaluate scope condition σ).result = .ok v) (hv : v.isTrue = true) :
    Opens evaluate scope (.consequent condition alternative) σ (evaluate scope condition σ).store
  | alternative {condition consequent v : Value} {σ : Store}
    (h : (evaluate scope condition σ).result = .ok v) (hv : v.isTrue = false) :
    Opens evaluate scope (.alternative condition consequent) σ (evaluate scope condition σ).store
  | operand {name : String} {σ : Store} : Opens evaluate scope (.operand name) σ σ

/-- What fails at the open place fails the layer. -/
lemma evaluateWith_failsAs {γ : Type} {evaluate : Evaluator} {scope : Scope} {layer : Layer}
    {code : Value} {σ σ' : Store} {e : EvalError} {last : Run γ} (htakes : layer.Takes code)
    (hopens : layer.Opens evaluate scope σ σ') (h : (evaluate scope code σ').FailsAs e last) :
    (evaluateWith evaluate scope (layer.fill code) σ).FailsAs e last := by
  cases hopens with
  | @element before after vs σ σ' hbefore =>
    have heach := hbefore.failsAs h after
    cases before with
    | nil =>
      have hhead : formOf? code = none := htakes
      rw [fill, List.nil_append, evaluateWith_application_eq_each _ _ _ hhead]
      exact heach.bind _
    | cons head before =>
      have hhead : formOf? head = none := htakes
      rw [fill, List.cons_append, evaluateWith_application_eq_each _ _ _ hhead]
      exact heach.bind _
  | condition =>
    rw [fill, evaluateWith_form]
    exact h.bind _
  | consequent hcondition hv =>
    rw [fill, evaluateWith_form]
    exact .of_bind hcondition (by rwa [if_pos hv])
  | alternative hcondition hv =>
    rw [fill, evaluateWith_form]
    exact .of_bind hcondition (by rwa [if_neg (Bool.eq_false_iff.1 hv)])
  | operand =>
    rw [fill, evaluateWith_form, formWith_defparameter]
    exact h.bind _

end Layer

/-- Layers within each other, the outermost first. -/
abbrev Context := List Layer

namespace Context

/-- The context with code at its open place. -/
def fill (context : Context) (code : Value) : Value := context.foldr Layer.fill code

/-- With the code at the open place each layer is still one of its kind. -/
def Takes : Context → Value → Prop
  | [], _ => True
  | layer :: inner, code => layer.Takes (fill inner code) ∧ Takes inner code

/-- Evaluation of the context gets to its open place, from one store to another; there it may nest
to a depth further. -/
inductive Reaches (depth : Nat) (scope : Scope) : Context → Store → Store → Prop
  | here {σ : Store} : Reaches depth scope [] σ σ
  | layer {layer : Layer} {inner : Context} {σ between σ' : Store}
    (hlayer : layer.Opens (evaluate (depth + inner.length)) scope σ between)
    (hinner : Reaches depth scope inner between σ') : Reaches depth scope (layer :: inner) σ σ'

/-- What fails at the open place fails the context. -/
lemma Reaches.failsAs {γ : Type} {depth : Nat} {scope : Scope} {context : Context} {code : Value}
    {σ σ' : Store} {e : EvalError} {last : Run γ} (hreaches : context.Reaches depth scope σ σ')
    (htakes : context.Takes code) (h : (evaluate depth scope code σ').FailsAs e last) :
    (evaluate (depth + context.length) scope (context.fill code) σ).FailsAs e last := by
  induction hreaches with
  | here => exact h
  | layer hlayer _ ih =>
    exact .evaluate_succ (Layer.evaluateWith_failsAs htakes.1 hlayer (ih htakes.2 h))

end Context

/-- An application of a closure fails as the body does. -/
lemma failsAs_of_body {depth : Nat} {scope : Scope} {head : Value} {operands : List Value}
    {σ σ' : Store} {stamp : Nat} {parameters : List String} {body : Value} {captured : Scope}
    {arguments : List Value} {e : EvalError} (hhead : formOf? head = none)
    (h : EvaluatesEach (evaluate depth) scope (head :: operands) σ
      (.closure stamp parameters body captured :: arguments) σ') :
    let call := σ'.enter parameters arguments captured
    (evaluate depth call.1 body call.2).result = .error e →
      (evaluate (depth + 1) scope (.list (head :: operands)) σ).FailsAs e
        (evaluate depth call.1 body call.2) := by
  intro call hbody
  obtain ⟨hresult, hstore⟩ := h.result_eq_and_store_eq
  refine .evaluate_succ ?_
  rw [evaluateWith_application_eq_each _ _ _ hhead]
  refine .of_bind hresult ?_
  rw [hstore, List.headD_cons, List.tail_cons, applyWith_closure]
  exact ⟨hbody, rfl, List.suffix_cons _ _⟩

/-- **Failures pass through contexts.**  If evaluation of a context gets to the open place, and the
code there fails, then the whole fails with the same error and leaves the same store, and nothing
happens behind the failure: no head is applied, no name is bound, and nothing that was bound is
taken back.  It does not matter what stands behind the open place and in the branches that were
not chosen.  The same is true if the code applies a closure and its body fails. -/
theorem failures_pass_through (context : Context) (code : Value) (depth : Nat) (scope : Scope)
    (σ σ' : Store) (hreaches : context.Reaches depth scope σ σ') (htakes : context.Takes code) :
    let whole := evaluate (depth + context.length) scope (context.fill code) σ
    (∀ e, (evaluate depth scope code σ').result = .error e →
        whole.FailsAs e (evaluate depth scope code σ')) ∧
      ∀ inside head operands stamp parameters body captured arguments between e,
        depth = inside + 1 → code = .list (head :: operands) → formOf? head = none →
        EvaluatesEach (evaluate inside) scope (head :: operands) σ'
          (.closure stamp parameters body captured :: arguments) between →
        let call := between.enter parameters arguments captured
        (evaluate inside call.1 body call.2).result = .error e →
          whole.FailsAs e (evaluate inside call.1 body call.2) := by
  intro whole
  refine ⟨fun e h => hreaches.failsAs htakes (.refl h), ?_⟩
  rintro inside head operands stamp parameters body captured arguments between e rfl rfl hhead
    heach call hbody
  exact hreaches.failsAs htakes (failsAs_of_body hhead heach hbody)

/-- An argument, in which a name would be bound, is a conditional whose branch applies a closure:
the body fails, the name that an argument before it bound stays bound and the other one is not. -/
theorem failures_pass_through_argument :
    let root : Scope := .root 0
    let before := [.native .add, SpecialForm.defparameter.code [.symbol "a", .t]]
    let context : Context :=
      [.element before [.symbol "later"], .operand "b", .consequent (.symbol "a") (.symbol "c")]
    let head : Value := .closure 0 ["x"] (.symbol "y") root
    let code : Value := .list [head, .nil]
    let σ := Store.empty.grow
    let σ' := σ.set root "a" .t
    let call := σ'.enter ["x"] [.nil] root
    let whole := evaluate 5 root (context.fill code) σ
    context.Reaches 2 root σ σ' ∧ context.Takes code ∧
      whole.FailsAs (.unbound "y") (evaluate 2 root code σ') ∧
      whole.FailsAs (.unbound "y") (evaluate 1 call.1 (.symbol "y") call.2) ∧
      (whole.store.frame 0).contains "a" = true ∧ (whole.store.frame 0).contains "b" = false := by
  intro root before context head code σ σ' call whole
  have hreaches : context.Reaches 2 root σ σ' :=
    .layer (.element (.cons rfl (.cons rfl .nil)))
      (.layer .operand (.layer (.consequent rfl rfl) .here))
  have htakes : context.Takes code := ⟨rfl, trivial, trivial, trivial⟩
  obtain ⟨hcode, hbody⟩ := failures_pass_through context code 2 root σ σ' hreaches htakes
  have hwhole : whole.FailsAs (.unbound "y") (evaluate 2 root code σ') := hcode _ rfl
  have happlied := hbody 1 head [.nil] 0 ["x"] (.symbol "y") root [.nil] σ' (.unbound "y") rfl rfl
    rfl (.cons rfl (.cons rfl .nil)) rfl
  refine ⟨hreaches, htakes, hwhole, happlied, ?_, ?_⟩ <;> decide +kernel

end MiniLisp
