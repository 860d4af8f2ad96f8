/-
# The course of an evaluation

What an evaluation comes to and which records it leaves, said by rules and without a depth.  Each
rule has the records of the parts in the order in which the parts are evaluated; a definition adds
its record behind those of the operand, when the name is bound, and an application with too many
or too few arguments adds one before those of the body.  An evaluation that ends at some depth
follows the rules, and it is the only one that does (`evaluates_iff`).
-/
import Mathlib.Order.Filter.AtTopBot.Basic
import MiniLisp.Proofs.Eval.Depth
import MiniLisp.Session.Record

namespace MiniLisp

open Evaluation Filter

mutual

/-- Code in a scope comes to a value or an error and changes the store, and leaves records. -/
inductive Evaluates : Scope → Value → Store → Except EvalError Value → Store → List Record → Prop
  /-- Code that evaluates to itself. -/
  | self {scope : Scope} {code : Value} {σ : Store} (hself : code.isSelfEvaluating) :
    Evaluates scope code σ (.ok code) σ []
  /-- A name that is bound. -/
  | bound {scope : Scope} {name : String} {σ : Store} {v : Value}
    (hname : σ.lookup? scope name = some v) : Evaluates scope (.symbol name) σ (.ok v) σ []
  /-- A name that is not. -/
  | unbound {scope : Scope} {name : String} {σ : Store} (hname : σ.lookup? scope name = none) :
    Evaluates scope (.symbol name) σ (.error (.unbound name)) σ []
  /-- The empty list. -/
  | unit {scope : Scope} {σ : Store} : Evaluates scope (.list []) σ (.ok .nil) σ []
  /-- A quotation. -/
  | quotation {scope : Scope} {datum : Value} {σ : Store} :
    Evaluates scope (SpecialForm.quotation.code [datum]) σ (.ok datum) σ []
  /-- A special form that refuses its operands. -/
  | refused {scope : Scope} {form : SpecialForm} {operands : List Value} {e : EvalError} {σ : Store}
    (hrefused : form.Refuses operands e) :
    Evaluates scope (form.code operands) σ (.error e) σ []
  /-- A conditional: the condition and then one of the two branches. -/
  | conditional {scope : Scope} {condition consequent alternative v : Value} {σ σ₁ σ₂ : Store}
    {result : Except EvalError Value} {log log' : List Record}
    (hcondition : Evaluates scope condition σ (.ok v) σ₁ log)
    (hbranch : Evaluates scope (if v.isTrue then consequent else alternative) σ₁ result σ₂ log') :
    Evaluates scope (SpecialForm.conditional.code [condition, consequent, alternative]) σ result σ₂
      (log ++ log')
  /-- A conditional whose condition fails. -/
  | condition {scope : Scope} {condition consequent alternative : Value} {σ σ₁ : Store}
    {e : EvalError} {log : List Record}
    (hcondition : Evaluates scope condition σ (.error e) σ₁ log) :
    Evaluates scope (SpecialForm.conditional.code [condition, consequent, alternative]) σ
      (.error e) σ₁ log
  /-- The definition of a name: behind the operand the name is bound. -/
  | defparameter {scope : Scope} {name : String} {code v : Value} {σ σ₁ : Store}
    {log : List Record} (hoperand : Evaluates scope code σ (.ok v) σ₁ log) :
    Evaluates scope (SpecialForm.defparameter.code [.symbol name, code]) σ (.ok (.symbol name))
      (σ₁.set scope name v) (log ++ [.parameterDefined name])
  /-- The definition of a name whose operand fails. -/
  | operand {scope : Scope} {name : String} {code : Value} {σ σ₁ : Store} {e : EvalError}
    {log : List Record} (hoperand : Evaluates scope code σ (.error e) σ₁ log) :
    Evaluates scope (SpecialForm.defparameter.code [.symbol name, code]) σ (.error e) σ₁ log
  /-- The definition of a function. -/
  | defun {scope : Scope} {name : String} {parameters : List String} {body : Value} {σ : Store} :
    Evaluates scope (definitionCode name parameters body) σ (.ok (.symbol name))
      ((σ.newClosure parameters body scope).2.set scope name
        (σ.newClosure parameters body scope).1)
      [.functionDefined name parameters]
  /-- An application: all elements and then the call. -/
  | application {scope : Scope} {head f : Value} {operands arguments : List Value}
    {σ σ₁ σ₂ : Store} {result : Except EvalError Value} {log log' : List Record}
    (hhead : formOf? head = none)
    (hall : EvaluatesAll scope (head :: operands) σ (.ok (f :: arguments)) σ₁ log)
    (hcall : Applies f arguments σ₁ result σ₂ log') :
    Evaluates scope (.list (head :: operands)) σ result σ₂ (log ++ log')
  /-- An application one of whose elements fails. -/
  | element {scope : Scope} {head : Value} {operands : List Value} {σ σ₁ : Store}
    {e : EvalError} {log : List Record} (hhead : formOf? head = none)
    (hall : EvaluatesAll scope (head :: operands) σ (.error e) σ₁ log) :
    Evaluates scope (.list (head :: operands)) σ (.error e) σ₁ log

/-- Codes in a scope come to values, one after another, or to the error of one of them. -/
inductive EvaluatesAll :
    Scope → List Value → Store → Except EvalError (List Value) → Store → List Record → Prop
  /-- No code. -/
  | nil {scope : Scope} {σ : Store} : EvaluatesAll scope [] σ (.ok []) σ []
  /-- Some code and then the others. -/
  | cons {scope : Scope} {code v : Value} {codes : List Value} {σ σ₁ σ₂ : Store}
    {result : Except EvalError (List Value)} {log log' : List Record}
    (hfirst : Evaluates scope code σ (.ok v) σ₁ log)
    (hothers : EvaluatesAll scope codes σ₁ result σ₂ log') :
    EvaluatesAll scope (code :: codes) σ (result.map (v :: ·)) σ₂ (log ++ log')
  /-- Some code that fails. -/
  | fails {scope : Scope} {code : Value} {codes : List Value} {σ σ₁ : Store} {e : EvalError}
    {log : List Record} (hfirst : Evaluates scope code σ (.error e) σ₁ log) :
    EvaluatesAll scope (code :: codes) σ (.error e) σ₁ log

/-- A call comes to a value or an error. -/
inductive Applies :
    Value → List Value → Store → Except EvalError Value → Store → List Record → Prop
  /-- The call of a native function. -/
  | native {f : Native} {arguments : List Value} {σ : Store} :
    Applies (.native f) arguments σ (f.apply arguments) σ []
  /-- The call of a closure: its body in a new scope. -/
  | closure {stamp : Nat} {parameters : List String} {body : Value} {captured : Scope}
    {arguments : List Value} {σ σ₁ : Store} {result : Except EvalError Value} {log : List Record}
    (hbody : Evaluates (σ.enter parameters arguments captured).1 body
      (σ.enter parameters arguments captured).2 result σ₁ log) :
    Applies (.closure stamp parameters body captured) arguments σ result σ₁
      ((if arguments.length = parameters.length then []
        else [.applying parameters arguments.length]) ++ log)
  /-- What is called is no function. -/
  | notCallable {f : Value} {arguments : List Value} {σ : Store}
    (hnative : ∀ g, f ≠ .native g)
    (hclosure : ∀ stamp parameters body captured, f ≠ .closure stamp parameters body captured) :
    Applies f arguments σ (.error (.about .notCallable f)) σ []

end

/-- The records of some events. -/
def recordsOf (events : List Event) : List Record := events.filterMap Event.record?

lemma recordsOf_append (events more : List Event) :
    recordsOf (events ++ more) = recordsOf events ++ recordsOf more :=
  List.filterMap_append

lemma recordsOf_entered (parameters : List String) (body : Value) (arguments : List Value)
    (scope : Scope) (events : List Event) :
    recordsOf (.entered parameters body arguments scope :: events) =
      (if arguments.length = parameters.length then []
        else [.applying parameters arguments.length]) ++ recordsOf events := by
  by_cases h : arguments.length = parameters.length
  · rw [if_pos h]
    exact List.filterMap_cons_none (if_pos h)
  · rw [if_neg h]
    exact List.filterMap_cons_some (if_neg h)

/-! ### What is evaluated follows the rules -/

namespace Evaluation

variable {α β : Type}

/-- A relation between stores before and after, what something comes to, and records. -/
abbrev Course (α : Type) : Type := Store → Except EvalError α → Store → List Record → Prop

/-- What an evaluation does is as a relation says, unless it nests too deeply. -/
def Follows (m : Evaluation α) (P : Course α) : Prop :=
  ∀ σ, (m σ).result ≠ .error .tooDeep → P σ (m σ).result (m σ).store (recordsOf (m σ).trace)

lemma Follows.bind {first : Evaluation α} {next : α → Evaluation β} {P : Course α}
    {Q : α → Course β} {R : Course β} (hfirst : first.Follows P)
    (hnext : ∀ a, (next a).Follows (Q a))
    (hok : ∀ {σ a σ₁ log result σ₂ log'}, P σ (.ok a) σ₁ log → Q a σ₁ result σ₂ log' →
      R σ result σ₂ (log ++ log'))
    (herror : ∀ {σ e σ₁ log}, P σ (.error e) σ₁ log → R σ (.error e) σ₁ log) :
    (first >>= next).Follows R := by
  intro σ hdeep
  have hcourse := hfirst σ
  cases hresult : (first σ).result with
  | error e =>
    rw [bind_of_error next hresult] at hdeep ⊢
    rw [hresult] at hcourse
    exact herror (hcourse fun h => hdeep (congrArg _ (Except.error.inj h)))
  | ok a =>
    rw [bind_of_ok next hresult] at hdeep ⊢
    rw [hresult] at hcourse
    rw [recordsOf_append]
    exact hok (hcourse (fun h => by cases h)) (hnext a _ hdeep)

lemma follows_pure (a : α) : (pure a : Evaluation α).Follows fun σ result σ₁ log =>
    result = .ok a ∧ σ₁ = σ ∧ log = [] :=
  fun _ _ => ⟨rfl, rfl, rfl⟩

lemma Follows.map {m : Evaluation α} {P : Course α} (hm : m.Follows P) (f : α → β) :
    (m >>= fun a => pure (f a)).Follows fun σ result σ₁ log =>
      ∃ inner, result = inner.map f ∧ P σ inner σ₁ log := by
  refine hm.bind (fun a => follows_pure (f a)) ?_ ?_
  · rintro σ a σ₁ log result σ₂ log' hcourse ⟨rfl, rfl, rfl⟩
    exact ⟨.ok a, rfl, (List.append_nil log).symm ▸ hcourse⟩
  · intro σ e σ₁ log hcourse
    exact ⟨.error e, rfl, hcourse⟩

end Evaluation

lemma EvaluatesAll.exists_cons {scope : Scope} {code : Value} {codes vs : List Value}
    {σ σ₁ : Store} {log : List Record}
    (h : EvaluatesAll scope (code :: codes) σ (.ok vs) σ₁ log) :
    ∃ v others, vs = v :: others := by
  generalize hresult : (Except.ok vs : Except EvalError (List Value)) = result at h
  cases h with
  | @cons _ _ v _ _ _ _ inner =>
    cases inner with
    | error e => cases hresult
    | ok others => exact ⟨v, others, Except.ok.inj hresult⟩
  | fails => cases hresult

/-- What is neither native nor a closure cannot be called. -/
lemma applyWith_eq_fail (evaluate : Evaluator) {f : Value} {arguments : List Value}
    (hnative : ∀ g, f ≠ .native g)
    (hclosure : ∀ stamp parameters body captured, f ≠ .closure stamp parameters body captured) :
    applyWith evaluate f arguments = fail (.about .notCallable f) := by
  cases f with
  | native g => exact absurd rfl (hnative g)
  | closure stamp parameters body captured => exact absurd rfl (hclosure _ _ _ _)
  | _ => rfl

section

variable {evaluate : Evaluator}
  (h : ∀ scope code, (evaluate scope code).Follows (Evaluates scope code))

include h

lemma follows_evaluateEach (scope : Scope) (codes : List Value) :
    (evaluateEach evaluate scope codes).Follows (EvaluatesAll scope codes) := by
  induction codes with
  | nil => exact fun σ _ => .nil
  | cons code codes ih =>
    refine (h scope code).bind (fun v => ih.map (v :: ·)) ?_ .fails
    rintro σ v σ₁ log result σ₂ log' hfirst ⟨inner, rfl, hothers⟩
    exact .cons hfirst hothers

lemma follows_applyWith (f : Value) (arguments : List Value) :
    (applyWith evaluate f arguments).Follows (Applies f arguments) := by
  cases f with
  | native f => exact fun σ _ => .native
  | closure stamp parameters body captured =>
    intro σ hdeep
    rw [applyWith_closure] at hdeep ⊢
    rw [recordsOf_entered]
    exact .closure (h _ _ _ hdeep)
  | _ => exact fun σ _ => .notCallable (fun _ h => by cases h) (fun _ _ _ _ h => by cases h)

lemma follows_evaluateWith (scope : Scope) (code : Value) :
    (evaluateWith evaluate scope code).Follows (Evaluates scope code) := by
  cases shape code with
  | self hself =>
    rw [evaluateWith_self _ scope hself]
    exact fun σ _ => .self hself
  | symbol name =>
    intro σ _
    rw [evaluateWith, lookup]
    cases hname : σ.lookup? scope name with
    | none => exact .unbound hname
    | some v => exact .bound hname
  | unit => exact fun σ _ => .unit
  | quotation datum => exact fun σ _ => .quotation
  | conditional condition consequent alternative =>
    rw [evaluateWith_form]
    refine (h scope condition).bind (fun v => ?_) .conditional .condition
    cases v.isTrue
    · exact h scope alternative
    · exact h scope consequent
  | defparameter name code =>
    rw [evaluateWith_form, formWith_defparameter]
    have hbind : ∀ v, Follows (do
        change (·.set scope name v)
        note (.parameterDefined name v scope)
        pure (Value.symbol name)) fun σ result σ₁ log =>
          result = .ok (Value.symbol name) ∧ σ₁ = σ.set scope name v ∧
            log = [.parameterDefined name] :=
      fun v σ _ => ⟨rfl, rfl, rfl⟩
    refine (h scope code).bind hbind ?_ .operand
    rintro σ v σ₁ log result σ₂ log' hoperand ⟨rfl, rfl, rfl⟩
    exact .defparameter hoperand
  | defun name parameters body =>
    intro σ _
    rw [definitionCode, evaluateWith_form, formWith_defun]
    exact .defun
  | malformed form operands e hform =>
    intro σ _
    rw [evaluateWith_form, hform]
    exact .refused (SpecialForm.refuses_of_malformed hform)
  | application head operands hhead =>
    rw [evaluateWith_application_eq_each _ scope operands hhead]
    refine (follows_evaluateEach h scope (head :: operands)).bind
      (fun vs => follows_applyWith h (vs.headD .nil) vs.tail) ?_ (.element hhead)
    intro σ vs σ₁ log result σ₂ log' hall hcall
    obtain ⟨f, arguments, rfl⟩ := hall.exists_cons
    exact .application hhead hall hcall

end

/-- **What evaluation does follows the rules, unless it nests too deeply.** -/
theorem follows_evaluate (depth : Nat) (scope : Scope) (code : Value) :
    (evaluate depth scope code).Follows (Evaluates scope code) := by
  induction depth generalizing scope code with
  | zero => exact fun σ hdeep => absurd rfl hdeep
  | succ depth ih => exact follows_evaluateWith ih scope code

/-! ### What follows the rules is evaluated -/

namespace Evaluation

variable {α β : Type}

/-- What an evaluation comes to, the store that it leaves and the records. -/
def ComesTo (m : Evaluation α) : Course α := fun σ result σ₁ log =>
  (m σ).result = result ∧ (m σ).store = σ₁ ∧ recordsOf (m σ).trace = log

variable {m : Evaluation α} {next : α → Evaluation β} {σ σ₁ σ₂ : Store} {log log' : List Record}

lemma ComesTo.bind_ok {a : α} {result : Except EvalError β} (hfirst : m.ComesTo σ (.ok a) σ₁ log)
    (hnext : (next a).ComesTo σ₁ result σ₂ log') :
    (m >>= next).ComesTo σ result σ₂ (log ++ log') := by
  obtain ⟨hresult, rfl, rfl⟩ := hfirst
  obtain ⟨rfl, rfl, rfl⟩ := hnext
  rw [ComesTo, bind_of_ok next hresult, recordsOf_append]
  exact ⟨rfl, rfl, rfl⟩

lemma ComesTo.bind_error {e : EvalError} (hfirst : m.ComesTo σ (.error e) σ₁ log) :
    (m >>= next).ComesTo σ (.error e) σ₁ log := by
  obtain ⟨hresult, rfl, rfl⟩ := hfirst
  rw [ComesTo, bind_of_error next hresult]
  exact ⟨rfl, rfl, rfl⟩

lemma comesTo_pure (a : α) (σ : Store) : (pure a : Evaluation α).ComesTo σ (.ok a) σ [] :=
  ⟨rfl, rfl, rfl⟩

lemma ComesTo.map {result : Except EvalError α} (h : m.ComesTo σ result σ₁ log) (f : α → β) :
    (m >>= fun a => pure (f a)).ComesTo σ (result.map f) σ₁ log := by
  cases result with
  | ok a =>
    rw [← List.append_nil log]
    exact h.bind_ok (comesTo_pure (f a) σ₁)
  | error e => exact h.bind_error

end Evaluation

/-- Code is evaluated one deeper than its parts. -/
lemma eventually_evaluate {scope : Scope} {code : Value} {σ σ₁ : Store}
    {result : Except EvalError Value} {log : List Record}
    (h : ∀ᶠ depth in atTop, (evaluateWith (evaluate depth) scope code).ComesTo σ result σ₁ log) :
    ∀ᶠ depth in atTop, (evaluate depth scope code).ComesTo σ result σ₁ log := by
  rw [← map_add_atTop_eq_nat 1]
  exact eventually_map.2 h

mutual

/-- What follows the rules is evaluated at every depth that is enough. -/
theorem Evaluates.eventually {scope : Scope} {code : Value} {σ σ₁ : Store}
    {result : Except EvalError Value} {log : List Record} :
    Evaluates scope code σ result σ₁ log →
      ∀ᶠ depth in atTop, (evaluate depth scope code).ComesTo σ result σ₁ log
  | .self hself => eventually_evaluate <| .of_forall fun _ => by
    rw [evaluateWith_self _ _ hself]
    exact comesTo_pure _ _
  | .bound hname => eventually_evaluate <| .of_forall fun _ => by
    rw [evaluateWith, ComesTo, lookup, hname]
    exact ⟨rfl, rfl, rfl⟩
  | .unbound hname => eventually_evaluate <| .of_forall fun _ => by
    rw [evaluateWith, ComesTo, lookup, hname]
    exact ⟨rfl, rfl, rfl⟩
  | .unit => eventually_evaluate <| .of_forall fun _ => comesTo_pure _ _
  | .quotation => eventually_evaluate <| .of_forall fun _ => comesTo_pure _ _
  | .refused hrefused => eventually_evaluate <| .of_forall fun _ => by
    rw [evaluateWith_form, hrefused.formWith_eq_fail]
    exact ⟨rfl, rfl, rfl⟩
  | .conditional hcondition hbranch => eventually_evaluate <| by
    filter_upwards [hcondition.eventually, hbranch.eventually] with depth hcondition hbranch
    rw [evaluateWith_form]
    refine hcondition.bind_ok ?_
    split <;> rename_i htrue
    · rwa [if_pos htrue] at hbranch
    · rwa [if_neg htrue] at hbranch
  | .condition hcondition => eventually_evaluate <| by
    filter_upwards [hcondition.eventually] with depth hcondition
    rw [evaluateWith_form]
    exact hcondition.bind_error
  | .defparameter hoperand => eventually_evaluate <| by
    filter_upwards [hoperand.eventually] with depth hoperand
    rw [evaluateWith_form, formWith_defparameter]
    exact hoperand.bind_ok ⟨rfl, rfl, rfl⟩
  | .operand hoperand => eventually_evaluate <| by
    filter_upwards [hoperand.eventually] with depth hoperand
    rw [evaluateWith_form, formWith_defparameter]
    exact hoperand.bind_error
  | .defun => eventually_evaluate <| .of_forall fun _ => by
    rw [definitionCode, evaluateWith_form, ComesTo, formWith_defun]
    exact ⟨rfl, rfl, rfl⟩
  | .application hhead hall hcall => eventually_evaluate <| by
    filter_upwards [hall.eventually, hcall.eventually] with depth hall hcall
    rw [evaluateWith_application_eq_each _ _ _ hhead]
    exact hall.bind_ok hcall
  | .element hhead hall => eventually_evaluate <| by
    filter_upwards [hall.eventually] with depth hall
    rw [evaluateWith_application_eq_each _ _ _ hhead]
    exact hall.bind_error

/-- The same of codes one after another. -/
theorem EvaluatesAll.eventually {scope : Scope} {codes : List Value} {σ σ₁ : Store}
    {result : Except EvalError (List Value)} {log : List Record} :
    EvaluatesAll scope codes σ result σ₁ log →
      ∀ᶠ depth in atTop, (evaluateEach (evaluate depth) scope codes).ComesTo σ result σ₁ log
  | .nil => .of_forall fun _ => comesTo_pure _ _
  | .cons hfirst hothers => by
    filter_upwards [hfirst.eventually, hothers.eventually] with depth hfirst hothers
    exact hfirst.bind_ok (hothers.map _)
  | .fails hfirst => by
    filter_upwards [hfirst.eventually] with depth hfirst
    exact hfirst.bind_error

/-- The same of calls. -/
theorem Applies.eventually {f : Value} {arguments : List Value} {σ σ₁ : Store}
    {result : Except EvalError Value} {log : List Record} :
    Applies f arguments σ result σ₁ log →
      ∀ᶠ depth in atTop, (applyWith (evaluate depth) f arguments).ComesTo σ result σ₁ log
  | .native => .of_forall fun _ => ⟨rfl, rfl, rfl⟩
  | .closure hbody => by
    filter_upwards [hbody.eventually] with depth hbody
    rw [ComesTo, applyWith_closure, recordsOf_entered]
    exact ⟨hbody.1, hbody.2.1, congrArg _ hbody.2.2⟩
  | .notCallable hnative hclosure => .of_forall fun _ => by
    rw [applyWith_eq_fail _ hnative hclosure]
    exact ⟨rfl, rfl, rfl⟩

end

/-- **An evaluation that ends follows the rules, and nothing else does.**  So the rules say of it
what it comes to, which store it leaves and which records in which order. -/
theorem evaluates_iff {depth : Nat} {scope : Scope} {code : Value} {σ σ₁ : Store}
    {result : Except EvalError Value} {log : List Record}
    (h : (evaluate depth scope code σ).result ≠ .error .tooDeep) :
    Evaluates scope code σ result σ₁ log ↔ (evaluate depth scope code).ComesTo σ result σ₁ log := by
  constructor
  · intro hcourse
    obtain ⟨deeper, hcomes, hle⟩ :=
      (hcourse.eventually.and (eventually_ge_atTop depth)).exists
    rwa [ComesTo, evaluate_of_le hle h] at hcomes
  · rintro ⟨rfl, rfl, rfl⟩
    exact follows_evaluate depth scope code σ h

end MiniLisp
