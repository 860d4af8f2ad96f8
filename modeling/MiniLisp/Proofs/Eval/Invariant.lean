/-
# What evaluation keeps

An invariant speaks of the store, of code together with the scope that it is evaluated in,
and of values, each seen after the events that happened so far.  Evaluation touches the
store at three places only: a name is bound to the value of an operand, a name is bound to
a new closure, and a closure that is applied gets a scope for its body.  If an invariant
stands these three, and if code hands it on to its parts, then every evaluation keeps it,
at every depth, whether it ends with a value or with an error.

The main statements are `Invariant.respects_evaluate` and `Invariant.keeps_apply`.
-/
import MiniLisp.Proofs.Eval.Arguments
import MiniLisp.Proofs.Eval.Shape

namespace MiniLisp

open Evaluation

namespace Value

/-- Whether a value is a number, a symbol or a truth value.  These are the values that
evaluation makes up. -/
def isPlain : Value → Bool
  | .number _ => true
  | .symbol _ => true
  | .nil => true
  | .t => true
  | _ => false

@[simp] lemma isPlain_ofBool (flag : Bool) : (ofBool flag).isPlain := by
  cases flag <;> rfl

end Value

/-- Native functions give numbers and truth values. -/
lemma Native.exists_of_apply {f : Native} {arguments : List Value} {v : Value}
    (h : f.apply arguments = .ok v) : (∃ x, v = .number x) ∨ ∃ flag, v = .ofBool flag := by
  cases apply_eq_ok_iff.1 h with
  | sum | difference | product | quotient => exact Or.inl ⟨_, rfl⟩
  | less | lessOrEqual | test => exact Or.inr ⟨_, rfl⟩

lemma Native.isPlain_of_apply {f : Native} {arguments : List Value} {v : Value}
    (h : f.apply arguments = .ok v) : v.isPlain := by
  rcases exists_of_apply h with ⟨x, rfl⟩ | ⟨flag, rfl⟩
  · rfl
  · exact Value.isPlain_ofBool flag

/-- An event among some events and one more is that one, which is the last, or was there before. -/
lemma last_or_before_of_concat_eq {past before after : List Event} {e other : Event}
    (h : past ++ [e] = before ++ other :: after) :
    (before = past ∧ other = e ∧ after = []) ∨
      ∃ between, after = between ++ [e] ∧ past = before ++ other :: between := by
  rcases List.eq_nil_or_concat after with rfl | ⟨between, last, rfl⟩
  · obtain ⟨rfl, hlast⟩ := List.append_inj' h rfl
    exact Or.inl ⟨rfl, (List.cons.inj hlast).1.symm, rfl⟩
  · rw [List.concat_eq_append, ← List.cons_append, ← List.append_assoc] at h
    obtain ⟨rfl, hlast⟩ := List.append_inj' h rfl
    obtain ⟨rfl, -⟩ := List.cons.inj hlast
    exact Or.inr ⟨between, List.concat_eq_append, rfl⟩

/-- What held of each event when it happened, after those before it, holds of each event when
one more happens, if it holds of that one. -/
lemma forall_events_concat {P : List Event → Event → Prop} {past : List Event} {e : Event}
    (h : ∀ before e after, past = before ++ e :: after → P before e) (he : P past e) :
    ∀ before other after, past ++ [e] = before ++ other :: after → P before other := by
  intro before other after heq
  obtain ⟨rfl, rfl, -⟩ | ⟨between, -, hpast⟩ := last_or_before_of_concat_eq heq
  · exact he
  · exact h before other between hpast

/-- Properties of stores, of code in a scope and of values, after some events, that
evaluation keeps. -/
structure Invariant where
  /-- The property of the store. -/
  store : List Event → Store → Prop
  /-- The property of code and the scope that it is evaluated in. -/
  code : List Event → Scope → Value → Prop
  /-- The property of values. -/
  value : List Event → Value → Prop
  /-- Events do not spoil code. -/
  code_append {past : List Event} {scope : Scope} {c : Value} (more : List Event) :
    code past scope c → code (past ++ more) scope c
  /-- Events do not spoil values. -/
  value_append {past : List Event} {v : Value} (more : List Event) :
    value past v → value (past ++ more) v
  code_parts {past : List Event} {scope : Scope} {c part : Value} :
    code past scope c → part ∈ c.parts → code past scope part
  value_plain {v : Value} (past : List Event) : v.isPlain → value past v
  value_self {past : List Event} {scope : Scope} {v : Value} :
    code past scope v → v.isSelfEvaluating → value past v
  value_quoted {past : List Event} {scope : Scope} {v : Value} :
    code past scope (SpecialForm.quotation.code [v]) → value past v
  value_lookup {past : List Event} {σ : Store} {scope : Scope} {name : String} {v : Value} :
    store past σ → code past scope (.symbol name) → σ.lookup? scope name = some v →
      value past v
  store_visited {past : List Event} {σ : Store} {scope : Scope} {c : Value} :
    store past σ → code past scope c → store (past ++ [.visited c scope]) σ
  store_parameter {past : List Event} {σ : Store} {scope : Scope} {name : String}
    {c v : Value} :
    store past σ → code past scope (SpecialForm.defparameter.code [.symbol name, c]) →
      value past v →
      store (past ++ [.parameterDefined name v scope]) (σ.set scope name v)
  store_function {past : List Event} {σ : Store} {scope : Scope} {name : String}
    {parameters : List String} {body : Value} :
    store past σ → code past scope (definitionCode name parameters body) →
      store (past ++ [.functionDefined name parameters body scope])
        ((σ.newClosure parameters body scope).2.set scope name
          (σ.newClosure parameters body scope).1)
  store_entered {past : List Event} {σ : Store} {stamp : Nat} {parameters : List String}
    {body : Value} {captured : Scope} {arguments : List Value} :
    store past σ → value past (.closure stamp parameters body captured) →
      (∀ v ∈ arguments, value past v) →
      store (past ++ [.entered parameters body arguments (σ.enter parameters arguments captured).1])
        (σ.enter parameters arguments captured).2
  code_entered {past : List Event} {σ : Store} {stamp : Nat} {parameters : List String}
    {body : Value} {captured : Scope} {arguments : List Value} :
    store past σ → value past (.closure stamp parameters body captured) →
      (∀ v ∈ arguments, value past v) →
      code (past ++ [.entered parameters body arguments (σ.enter parameters arguments captured).1])
        (σ.enter parameters arguments captured).1 body

namespace Invariant

variable {α β : Type} (I : Invariant)

/-- An evaluation keeps the invariant, and its value, if it gives one, has a property. -/
def Keeps (past : List Event) (m : Evaluation α) (post : List Event → α → Prop) : Prop :=
  ∀ σ, I.store past σ →
    I.store (past ++ (m σ).trace) (m σ).store ∧
      ∀ a, (m σ).result = .ok a → post (past ++ (m σ).trace) a

/-- What evaluates code keeps the invariant. -/
def Respects (evaluate : Evaluator) : Prop :=
  ∀ past scope code, I.code past scope code → I.Keeps past (evaluate scope code) I.value

variable {I} {past : List Event}

/-! ### Evaluations in general -/

lemma keeps_pure {a : α} {post : List Event → α → Prop} (h : post past a) :
    I.Keeps past (pure a) post := by
  intro σ hσ
  simp only [pure_apply, List.append_nil]
  refine ⟨hσ, ?_⟩
  intro b hb
  rwa [← Except.ok.inj hb]

lemma keeps_fail (e : EvalError) (post : List Event → α → Prop) :
    I.Keeps past (fail e) post := by
  intro σ hσ
  simp only [fail, List.append_nil]
  exact ⟨hσ, fun b hb => nomatch hb⟩

lemma keeps_ofExcept {result : Except EvalError α} {post : List Event → α → Prop}
    (h : ∀ a, result = .ok a → post past a) : I.Keeps past (Evaluation.ofExcept result) post := by
  intro σ hσ
  simp only [Evaluation.ofExcept, List.append_nil]
  exact ⟨hσ, h⟩

lemma keeps_bind {first : Evaluation α} {next : α → Evaluation β}
    {mid : List Event → α → Prop} {post : List Event → β → Prop}
    (hfirst : I.Keeps past first mid)
    (hnext : ∀ more a, mid (past ++ more) a → I.Keeps (past ++ more) (next a) post) :
    I.Keeps past (first >>= next) post := by
  intro σ hσ
  obtain ⟨hstore, hmid⟩ := hfirst σ hσ
  rw [bind_apply]
  cases hresult : (first σ).result with
  | error e =>
    -- Nothing more happens, but what has happened stays.
    exact ⟨hstore, fun b hb => nomatch hb⟩
  | ok a =>
    have hrest := hnext (first σ).trace a (hmid a hresult) (first σ).store hstore
    rwa [List.append_assoc] at hrest

/-! ### The parts of evaluation -/

/-- That the evaluation of code begins makes no difference to what is known of the code. -/
lemma keeps_visited {scope : Scope} {code : Value} (h : I.code past scope code) :
    I.Keeps past (note (.visited code scope)) fun later _ => I.code later scope code :=
  fun _ hσ => ⟨I.store_visited hσ h, fun _ _ => I.code_append _ h⟩

lemma keeps_lookup {scope : Scope} {name : String} (h : I.code past scope (.symbol name)) :
    I.Keeps past (lookup scope name) I.value := by
  intro σ hσ
  unfold lookup
  cases hlookup : σ.lookup? scope name with
  | none => exact ⟨by rwa [List.append_nil], fun v hv => nomatch hv⟩
  | some v =>
    simp only [List.append_nil]
    refine ⟨hσ, fun w hw => ?_⟩
    rw [← Except.ok.inj hw]
    exact I.value_lookup hσ h hlookup

section

variable {evaluate : Evaluator} (he : I.Respects evaluate)

include he

lemma keeps_applyWith {f : Value} {arguments : List Value} (hf : I.value past f)
    (ha : ∀ v ∈ arguments, I.value past v) :
    I.Keeps past (applyWith evaluate f arguments) I.value := by
  cases f with
  | native f =>
    exact keeps_ofExcept fun v hv => I.value_plain past (Native.isPlain_of_apply hv)
  | closure stamp parameters body captured =>
    intro σ hσ
    rw [applyWith_closure]
    -- The body runs behind the event that says that its scope was made.
    have hbody := he _ _ _ (I.code_entered hσ hf ha) _ (I.store_entered hσ hf ha)
    rwa [List.append_assoc] at hbody
  | _ => exact keeps_fail _ _

lemma keeps_evaluateEach {scope : Scope} {codes : List Value}
    (h : ∀ c ∈ codes, I.code past scope c) :
    I.Keeps past (evaluateEach evaluate scope codes)
      fun later vs => ∀ v ∈ vs, I.value later v := by
  induction codes generalizing past with
  | nil => exact keeps_pure (by simp)
  | cons code codes ih =>
    refine keeps_bind (he _ _ _ (h code List.mem_cons_self)) fun more v hv => ?_
    refine keeps_bind (ih fun c hc => I.code_append more (h c (List.mem_cons_of_mem _ hc)))
      fun more' vs hvs => keeps_pure ?_
    intro w hw
    rcases List.mem_cons.1 hw with rfl | hw
    · exact I.value_append more' hv
    · exact hvs w hw

lemma keeps_defparameter {scope : Scope} {name : String} {code : Value}
    (h : I.code past scope (SpecialForm.defparameter.code [.symbol name, code])) :
    I.Keeps past (formWith evaluate scope .defparameter [.symbol name, code]) I.value := by
  rw [formWith_defparameter]
  -- The name is bound after the operand is evaluated, with all that happened meanwhile.
  refine keeps_bind (he _ _ _ (I.code_parts h (by simp))) fun more v hv σ hσ => ?_
  exact ⟨I.store_parameter hσ (I.code_append more h) hv,
    fun w hw => Except.ok.inj hw ▸ I.value_plain _ rfl⟩

omit he in
lemma keeps_defun {scope : Scope} {name : String} {parameters : List String} {body : Value}
    (h : I.code past scope (definitionCode name parameters body)) :
    I.Keeps past (formWith evaluate scope .defun
      [.symbol name, .list (parameters.map .symbol), body]) I.value := by
  intro σ hσ
  rw [formWith_defun]
  exact ⟨I.store_function hσ h, fun w hw => Except.ok.inj hw ▸ I.value_plain _ rfl⟩

lemma keeps_conditional {scope : Scope} {condition consequent alternative : Value}
    (h : I.code past scope
      (SpecialForm.conditional.code [condition, consequent, alternative])) :
    I.Keeps past (formWith evaluate scope .conditional [condition, consequent, alternative])
      I.value := by
  refine keeps_bind (he _ _ _ (I.code_parts h (by simp))) fun more v hv => ?_
  by_cases hv : v.isTrue
  · rw [if_pos hv]
    exact he _ _ _ (I.code_append more (I.code_parts h (by simp)))
  · rw [if_neg hv]
    exact he _ _ _ (I.code_append more (I.code_parts h (by simp)))

lemma keeps_application {scope : Scope} {head : Value} {operands : List Value}
    (hhead : formOf? head = none) (h : I.code past scope (.list (head :: operands))) :
    I.Keeps past (evaluateWith evaluate scope (.list (head :: operands))) I.value := by
  have hparts : ∀ c ∈ head :: operands, I.code past scope c := fun c hc =>
    I.code_parts h (by rwa [Value.parts_application hhead])
  rw [evaluateWith_application evaluate scope operands hhead]
  refine keeps_bind (he _ _ _ (hparts head List.mem_cons_self)) fun more f hf => ?_
  refine keeps_bind (keeps_evaluateEach he fun c hc =>
    I.code_append more (hparts c (List.mem_cons_of_mem _ hc))) fun more' vs hvs => ?_
  exact keeps_applyWith he (I.value_append more' hf) hvs

lemma keeps_evaluateWith {scope : Scope} {code : Value} (h : I.code past scope code) :
    I.Keeps past (evaluateWith evaluate scope code) I.value := by
  cases shape code with
  | self hself =>
    rw [evaluateWith_self evaluate scope hself]
    exact keeps_pure (I.value_self h hself)
  | symbol name => exact keeps_lookup h
  | unit => exact keeps_pure (I.value_plain past rfl)
  | quotation datum =>
    rw [evaluateWith_form]
    exact keeps_pure (I.value_quoted h)
  | conditional condition consequent alternative =>
    rw [evaluateWith_form]
    exact keeps_conditional he h
  | defparameter name code =>
    rw [evaluateWith_form]
    exact keeps_defparameter he h
  | defun name parameters body =>
    rw [definitionCode, evaluateWith_form]
    exact keeps_defun h
  | malformed form operands e hform =>
    rw [evaluateWith_form, hform]
    exact keeps_fail _ _
  | application head operands hhead => exact keeps_application he hhead h

end

/-! ### Evaluation -/

/-- Evaluating code that has the property, in a store that has it, leaves a store that has
it, and the value, if there is one, has it too. -/
theorem respects_evaluate (I : Invariant) (depth : Nat) : I.Respects (evaluate depth) := by
  induction depth with
  | zero => exact fun _ _ _ _ => keeps_fail _ _
  | succ depth ih =>
    intro past scope code h
    exact keeps_bind (keeps_visited h) fun more _ hcode => keeps_evaluateWith ih hcode

/-- So does applying a function to arguments if all these have the property. -/
theorem keeps_apply (I : Invariant) (depth : Nat) {f : Value} {arguments : List Value}
    (hf : I.value past f) (ha : ∀ v ∈ arguments, I.value past v) :
    I.Keeps past (apply depth f arguments) I.value :=
  keeps_applyWith (I.respects_evaluate depth) hf ha

end Invariant

end MiniLisp
