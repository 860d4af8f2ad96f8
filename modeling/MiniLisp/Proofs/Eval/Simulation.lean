/-
# Corresponding evaluations

Code that corresponds, evaluated in stores that correspond, gives results that correspond
and leaves stores that correspond.  The two runs nest alike, so this holds at every depth,
and the one ends exactly if the other does.

What it means for code to correspond is left open: it need not be relabelled code.  It is
enough that each step of evaluation agrees, and for relabelled code it does
(`agree_evaluateWith`).  The main statement is `respects_evaluate`.
-/
import Mathlib.Data.List.Forall2
import MiniLisp.Proofs.Eval.Invariant
import MiniLisp.Proofs.Scope.Correspondence

namespace MiniLisp

open Evaluation

/-! ### Errors -/

namespace EvalError

/-- The error with other names, stamps and scopes in the values that it shows. -/
def relabel (f : Relabelling) : EvalError → EvalError
  | .unbound name => .unbound (f.name name)
  | .notCallable head => .notCallable (head.relabel f)
  | .notNumber argument => .notNumber (argument.relabel f)
  | .notName operand => .notName (operand.relabel f)
  | .notParameters operand => .notParameters (operand.relabel f)
  | e => e

variable {f : Relabelling}

lemma relabel_about {cause : Value → EvalError}
    (hcause : ∀ v, (cause v).relabel f = cause (v.relabel f)) (v : Value) :
    (about cause v).relabel f = about cause (v.relabel f) := by
  rw [about, about, Value.isDisplayable_relabel]
  split
  · exact hcause v
  · rfl

/-- Only names show in messages. -/
lemma message_relabel (h : ∀ name, f.name name = name) (e : EvalError) :
    (e.relabel f).message = e.message := by
  cases e with
  | unbound name => exact congrArg ("unbound variable: " ++ ·) (h name)
  | notCallable v => exact congrArg ("illegal function call: " ++ ·) (Value.display_relabel h v)
  | notNumber v =>
    exact congrArg ("Argument " ++ · ++ " is not a number") (Value.display_relabel h v)
  | notName v => exact congrArg ("not a legal name: " ++ ·) (Value.display_relabel h v)
  | notParameters v =>
    exact congrArg ("argument error: parameter list must be a list of symbols, got " ++ ·)
      (Value.display_relabel h v)
  | _ => rfl

/-- Only names show in the outlines of values. -/
lemma relabel_outlining_relabel (h : ∀ name, f.name name = name) (e : EvalError) :
    (e.relabel f).relabel Value.outlining = e.relabel Value.outlining := by
  cases e with
  | unbound name => exact congrArg EvalError.unbound (h name)
  | notCallable v => exact congrArg EvalError.notCallable (Value.outline_relabel h v)
  | notNumber v => exact congrArg EvalError.notNumber (Value.outline_relabel h v)
  | notName v => exact congrArg EvalError.notName (Value.outline_relabel h v)
  | notParameters v => exact congrArg EvalError.notParameters (Value.outline_relabel h v)
  | _ => rfl

end EvalError

lemma Value.display?_relabel {f : Relabelling} (h : ∀ name, f.name name = name) (v : Value) :
    (v.relabel f).display? = v.display? := by
  rw [display?, display?, isDisplayable_relabel, display_relabel h]

/-- The result with other names, stamps and scopes in its value or in its error. -/
def relabelResult (f : Relabelling) (result : Except EvalError Value) : Except EvalError Value :=
  (result.map (Value.relabel f)).mapError (EvalError.relabel f)

lemma relabelResult_eq_tooDeep_iff {f : Relabelling} {result : Except EvalError Value} :
    relabelResult f result = .error .tooDeep ↔ result = .error .tooDeep := by
  cases result with
  | ok v => exact ⟨nofun, nofun⟩
  | error e => cases e <;> simp [relabelResult, Except.map, Except.mapError, EvalError.relabel]

lemma mapError_message_relabelResult {f : Relabelling} (h : ∀ name, f.name name = name)
    (result : Except EvalError Value) :
    (relabelResult f result).mapError EvalError.message =
      (result.map (Value.relabel f)).mapError EvalError.message := by
  cases result with
  | ok v => rfl
  | error e => exact congrArg Except.error (EvalError.message_relabel h e)

/-! ### Native functions -/

namespace Native

variable (f : Relabelling)

lemma mapError_bind {ε ε' α β : Type} (g : ε → ε') (x : Except ε α) (next : α → Except ε β) :
    (x >>= next).mapError g = x.mapError g >>= fun a => (next a).mapError g := by
  cases x <;> rfl

lemma numberOf_relabel (v : Value) :
    numberOf (v.relabel f) = (numberOf v).mapError (·.relabel f) := by
  cases v with
  | number x => rfl
  | _ => exact congrArg Except.error (EvalError.relabel_about (fun _ => rfl) _).symm

lemma numbersOf_relabel (vs : List Value) :
    numbersOf (vs.map (Value.relabel f)) = (numbersOf vs).mapError (·.relabel f) := by
  induction vs with
  | nil => rfl
  | cons v vs ih =>
    rw [List.map_cons, numbersOf, numbersOf, numberOf_relabel, ih, mapError_bind]
    refine congrArg _ (funext fun x => ?_)
    rw [mapError_bind]
    rfl

lemma operandsOf_relabel (g : Native) (vs : List Value) :
    operandsOf g (vs.map (Value.relabel f)) = (operandsOf g vs).mapError (·.relabel f) := by
  cases vs with
  | nil => rfl
  | cons v vs =>
    rw [List.map_cons, operandsOf, operandsOf, numberOf_relabel, numbersOf_relabel, mapError_bind]
    refine congrArg _ (funext fun x => ?_)
    rw [mapError_bind]
    rfl

lemma quotient_mapError (x : Binary64) (xs : List Binary64) :
    (quotient x xs).mapError (·.relabel f) = quotient x xs := by
  unfold quotient
  split <;> rfl

/-- Native functions look at no name, stamp or scope. -/
lemma apply_relabel (g : Native) (vs : List Value) :
    g.apply (vs.map (Value.relabel f)) = (g.apply vs).mapError (·.relabel f) := by
  cases g with
  | add =>
    rw [apply, apply, numbersOf_relabel, mapError_bind]
    rfl
  | div =>
    rw [apply, apply, operandsOf_relabel, mapError_bind]
    refine congrArg _ (funext fun operands => ?_)
    obtain ⟨x, xs⟩ := operands
    rw [mapError_bind, quotient_mapError]
    rfl
  | numberp =>
    rcases vs with _ | ⟨v, _ | ⟨w, vs⟩⟩
    · rfl
    · rw [List.map_singleton, apply, Value.number?_relabel]
      rfl
    · rfl
  | sub | mul | lt | le =>
    rw [apply, apply, operandsOf_relabel, mapError_bind]
    rfl

end Native

/-! ### Agreement -/

namespace Correspondence

variable {α β : Type} (K : Correspondence)

/-- A value and the one that corresponds to it; hidden names must not occur. -/
def SameValue (v v' : Value) : Prop := v' = v.relabel K.toRelabelling ∧ v.Avoids K.hidden

/-- Values and the ones that correspond to them. -/
def SameValues (vs vs' : List Value) : Prop :=
  vs' = vs.map (Value.relabel K.toRelabelling) ∧ ∀ v ∈ vs, v.Avoids K.hidden

/-- A name and the one that corresponds to it; it must not be hidden. -/
def SameName (name name' : String) : Prop := name' = K.name name ∧ name ∉ K.hidden

/-- Names and the ones that correspond to them; they must not be hidden. -/
def SameNames (names names' : List String) : Prop :=
  names' = names.map K.name ∧ ∀ name ∈ names, name ∉ K.hidden

/-- The results of two runs correspond: either both are values, which are as they should
be, or both are errors of one kind with corresponding values in them. -/
inductive Outcome (post : α → α → Prop) : Except EvalError α → Except EvalError α → Prop
  | ok {a a' : α} (h : post a a') : Outcome post (.ok a) (.ok a')
  | error (e : EvalError) : Outcome post (.error e) (.error (e.relabel K.toRelabelling))

/-- From corresponding stores two evaluations come to corresponding results and stores. -/
def Agree (post : α → α → Prop) (m m' : Evaluation α) : Prop :=
  ∀ σ σ', K.Matches σ σ' →
    K.Outcome post (m σ).result (m' σ').result ∧ K.Matches (m σ).store (m' σ').store

/-- What evaluates code evaluates corresponding code alike. -/
def Respects (R : Scope → Value → Scope → Value → Prop) (evaluate evaluate' : Evaluator) : Prop :=
  ∀ scope code scope' code', R scope code scope' code' →
    K.Agree K.SameValue (evaluate scope code) (evaluate' scope' code')

/-- Relabelled code in a relabelled scope. -/
def SameCode (scope : Scope) (code : Value) (scope' : Scope) (code' : Value) : Prop :=
  scope' = K.scope scope ∧ K.SameValue code code'

variable {K}

lemma Outcome.eq_relabelResult {result result' : Except EvalError Value}
    (h : K.Outcome K.SameValue result result') :
    result' = relabelResult K.toRelabelling result := by
  cases h with
  | ok h => rw [h.1]; rfl
  | error e => rfl

lemma agree_pure {post : α → α → Prop} {a a' : α} (h : post a a') :
    K.Agree post (pure a) (pure a') :=
  fun _ _ hσ => ⟨.ok h, hσ⟩

lemma agree_fail (post : α → α → Prop) {e e' : EvalError} (h : e' = e.relabel K.toRelabelling) :
    K.Agree post (fail e) (fail e') := by
  subst h
  exact fun _ _ hσ => ⟨.error e, hσ⟩

lemma agree_ofExcept {post : α → α → Prop} {x x' : Except EvalError α}
    (h : K.Outcome post x x') : K.Agree post (ofExcept x) (ofExcept x') :=
  fun _ _ hσ => ⟨h, hσ⟩

lemma agree_note (e e' : Event) : K.Agree (fun _ _ => True) (note e) (note e') :=
  fun _ _ hσ => ⟨.ok trivial, hσ⟩

lemma agree_bind {mid : α → α → Prop} {post : β → β → Prop} {first first' : Evaluation α}
    {next next' : α → Evaluation β} (hfirst : K.Agree mid first first')
    (hnext : ∀ a a', mid a a' → K.Agree post (next a) (next' a')) :
    K.Agree post (first >>= next) (first' >>= next') := by
  intro σ σ' hσ
  obtain ⟨hresult, hstore⟩ := hfirst σ σ' hσ
  rw [bind_apply, bind_apply]
  generalize (first σ).result = result, (first' σ').result = result' at hresult
  cases hresult with
  | ok h => exact hnext _ _ h _ _ hstore
  | error e => exact ⟨.error e, hstore⟩

/-! ### The parts of evaluation -/

lemma agree_lookup {name : String} (hname : name ∉ K.hidden) (scope : Scope) :
    K.Agree K.SameValue (lookup scope name) (lookup (K.scope scope) (K.name name)) := by
  intro σ σ' hσ
  unfold lookup
  rw [hσ.lookup?_eq hname]
  cases h : σ.lookup? scope name with
  | none => exact ⟨.error (.unbound name), hσ⟩
  | some v => exact ⟨.ok ⟨rfl, hσ.avoids_of_lookup? hname h⟩, hσ⟩

lemma agree_set {name : String} {v v' : Value} (hv : K.SameValue v v') (scope : Scope) :
    K.Agree (fun _ _ => True) (change (·.set scope name v))
      (change (·.set (K.scope scope) (K.name name) v')) := by
  rintro σ σ' hσ
  rw [hv.1]
  exact ⟨.ok trivial, hσ.set (fun _ => hv.2) scope⟩

lemma agree_newClosure {parameters parameters' : List String} {body : Value}
    (hparameters : K.SameNames parameters parameters') (hbody : body.Avoids K.hidden)
    (scope : Scope) :
    K.Agree K.SameValue (make fun σ => σ.newClosure parameters body scope)
      (make fun σ => σ.newClosure parameters' (body.relabel K.toRelabelling) (K.scope scope)) := by
  intro σ σ' hσ
  refine ⟨.ok ⟨?_, Value.avoids_closure.2 ⟨hparameters.2, hbody⟩⟩,
    hσ.newClosure parameters body scope parameters' (body.relabel K.toRelabelling)
      (K.scope scope)⟩
  have hstamp : K.stamp σ.stamps = σ'.stamps := hσ.next_stamp 0
  simp only [Store.newClosure, Value.relabel_closure, hparameters.1, hstamp]

/-- The head of a list stands for the special form that it stood for. -/
lemma formOf?_relabel (head : Value) : formOf? (head.relabel K.toRelabelling) = formOf? head := by
  refine Option.ext fun form => ?_
  rw [formOf?_eq_some_iff, formOf?_eq_some_iff]
  constructor
  · intro h
    cases head with
    | symbol name =>
      rw [Value.relabel_symbol, Value.symbol.injEq, ← K.name_form, K.name_injective.eq_iff] at h
      rw [h]
    | list items => simp at h
    | _ => cases h
  · rintro rfl
    rw [Value.relabel_symbol, K.name_form]

lemma outcome_nameOf {target : Value} (h : target.Avoids K.hidden) :
    K.Outcome K.SameName (nameOf target) (nameOf (target.relabel K.toRelabelling)) := by
  cases hsymbol : target.symbol? with
  | some name =>
    rw [Value.symbol?_eq_some_iff.1 hsymbol] at h ⊢
    exact .ok ⟨rfl, Value.avoids_symbol.1 h⟩
  | none =>
    have hsymbol' : (target.relabel K.toRelabelling).symbol? = none := by
      rw [Value.symbol?_relabel, hsymbol, Option.map_none]
    rw [nameOf_eq_error hsymbol, nameOf_eq_error hsymbol',
      ← EvalError.relabel_about fun _ => rfl]
    exact .error _

lemma symbolNames?_relabel (items : List Value) :
    symbolNames? (items.map (Value.relabel K.toRelabelling)) =
      (symbolNames? items).map (List.map K.name) := by
  induction items with
  | nil => rfl
  | cons item items ih =>
    cases item with
    | symbol name =>
      rw [List.map_cons, Value.relabel_symbol, symbolNames?, symbolNames?, ih, Option.map_map,
        Option.map_map]
      rfl
    | list nested => rw [List.map_cons, Value.relabel_list]; rfl
    | _ => rfl

lemma outcome_parametersOf {operand : Value} (h : operand.Avoids K.hidden) :
    K.Outcome K.SameNames (parametersOf operand)
      (parametersOf (operand.relabel K.toRelabelling)) := by
  have herror : ∀ v : Value, K.Outcome K.SameNames (.error (.about .notParameters v))
      (.error (.about .notParameters (v.relabel K.toRelabelling))) := by
    intro v
    rw [← EvalError.relabel_about fun _ => rfl]
    exact .error _
  cases operand with
  | list items =>
    have hitems := herror (.list items)
    rw [Value.relabel_list] at hitems ⊢
    rw [parametersOf, parametersOf, symbolNames?_relabel]
    cases hnames : symbolNames? items with
    | some names =>
      refine .ok ⟨rfl, fun name hname => ?_⟩
      rw [symbolNames?_eq_some_iff.1 hnames, Value.avoids_list] at h
      exact Value.avoids_symbol.1 (h _ (List.mem_map_of_mem hname))
    | none => exact hitems
  | _ => exact herror _

/-! ### Steps of evaluation -/

section

variable {R : Scope → Value → Scope → Value → Prop} {evaluate evaluate' : Evaluator}
  (he : K.Respects R evaluate evaluate')

include he

lemma agree_evaluateEach {scope scope' : Scope} {codes codes' : List Value}
    (h : List.Forall₂ (fun code code' => R scope code scope' code') codes codes') :
    K.Agree K.SameValues (evaluateEach evaluate scope codes)
      (evaluateEach evaluate' scope' codes') := by
  induction h with
  | nil => exact agree_pure ⟨rfl, nofun⟩
  | cons hcode _ ih =>
    refine agree_bind (he _ _ _ _ hcode) fun v v' hv => agree_bind ih fun vs vs' hvs =>
      agree_pure ?_
    exact ⟨by rw [hv.1, hvs.1, List.map_cons], List.forall_mem_cons.2 ⟨hv.2, hvs.2⟩⟩

lemma agree_conditional {scope scope' : Scope}
    {condition consequent alternative condition' consequent' alternative' : Value}
    (hcondition : R scope condition scope' condition')
    (hconsequent : R scope consequent scope' consequent')
    (halternative : R scope alternative scope' alternative') :
    K.Agree K.SameValue
      (formWith evaluate scope .conditional [condition, consequent, alternative])
      (formWith evaluate' scope' .conditional [condition', consequent', alternative']) := by
  refine agree_bind (he _ _ _ _ hcondition) fun v v' hv => ?_
  rw [hv.1, Value.isTrue_relabel]
  split
  · exact he _ _ _ _ hconsequent
  · exact he _ _ _ _ halternative

/-! ### Steps of relabelled code -/

variable (hR : ∀ scope code scope' code', K.SameCode scope code scope' code' →
  R scope code scope' code')

include hR

/-- Corresponding functions agree on corresponding arguments. -/
lemma agree_applyWith {f f' : Value} {arguments arguments' : List Value} (hf : K.SameValue f f')
    (harguments : K.SameValues arguments arguments') :
    K.Agree K.SameValue (applyWith evaluate f arguments) (applyWith evaluate' f' arguments') := by
  obtain ⟨rfl, hf⟩ := hf
  obtain ⟨rfl, harguments⟩ := harguments
  have hfail : ∀ v : Value, K.Agree K.SameValue (fail (.about .notCallable v))
      (fail (.about .notCallable (v.relabel K.toRelabelling))) := fun v =>
    agree_fail _ (EvalError.relabel_about (fun _ => rfl) v).symm
  cases f with
  | native f =>
    refine agree_ofExcept ?_
    rw [Native.apply_relabel]
    cases hresult : f.apply arguments with
    | error e => exact .error e
    | ok v =>
      -- The value is a number or a truth value, which is the same in both runs.
      rcases Native.exists_of_apply hresult with ⟨x, rfl⟩ | ⟨flag, rfl⟩
      · exact .ok ⟨rfl, Value.avoids_inert rfl⟩
      · exact .ok ⟨(Value.relabel_ofBool _ flag).symm,
          Value.avoids_inert (by cases flag <;> rfl)⟩
  | closure stamp parameters body captured =>
    intro σ σ' hσ
    rw [Value.relabel_closure, applyWith_closure, applyWith_closure]
    obtain ⟨hscope, hentered⟩ := hσ.enter harguments parameters captured
    exact he _ _ _ _ (hR _ _ _ _ ⟨hscope.symm, rfl, (Value.avoids_closure.1 hf).2⟩) _ _ hentered
  | list items =>
    have hitems := hfail (.list items)
    rw [Value.relabel_list] at hitems ⊢
    exact hitems
  | _ => exact hfail _

lemma agree_application {scope scope' : Scope} {head head' : Value}
    {operands operands' : List Value} (hhead : R scope head scope' head')
    (hoperands : List.Forall₂ (fun code code' => R scope code scope' code') operands operands') :
    K.Agree K.SameValue
      (do
        let f ← evaluate scope head
        let arguments ← evaluateEach evaluate scope operands
        applyWith evaluate f arguments)
      (do
        let f ← evaluate' scope' head'
        let arguments ← evaluateEach evaluate' scope' operands'
        applyWith evaluate' f arguments) :=
  agree_bind (he _ _ _ _ hhead) fun _ _ hf => agree_bind (agree_evaluateEach he hoperands)
    fun _ _ harguments => agree_applyWith he hR hf harguments

lemma agree_formWith (form : SpecialForm) {operands : List Value}
    (h : ∀ operand ∈ operands, operand.Avoids K.hidden) (scope : Scope) :
    K.Agree K.SameValue (formWith evaluate scope form operands)
      (formWith evaluate' (K.scope scope) form (operands.map (Value.relabel K.toRelabelling))) := by
  have hoperand : ∀ operand ∈ operands,
      R scope operand (K.scope scope) (operand.relabel K.toRelabelling) :=
    fun operand hmem => hR _ _ _ _ ⟨rfl, rfl, h operand hmem⟩
  cases form with
  | quotation =>
    match operands with
    | [datum] => exact agree_pure ⟨rfl, h datum (by simp)⟩
    | [] | _ :: _ :: _ => exact agree_fail _ rfl
  | conditional =>
    match operands with
    | [condition, consequent, alternative] =>
      exact agree_conditional he (hoperand condition (by simp)) (hoperand consequent (by simp))
        (hoperand alternative (by simp))
    | [] | [_] | [_, _] | _ :: _ :: _ :: _ :: _ => exact agree_fail _ rfl
  | defparameter =>
    match operands with
    | [target, code] =>
      refine agree_bind (agree_ofExcept (outcome_nameOf (h target (by simp)))) ?_
      rintro name _ ⟨rfl, hname⟩
      refine agree_bind (he _ _ _ _ (hoperand code (by simp))) fun v v' hv => ?_
      refine agree_bind (agree_set hv scope) fun _ _ _ => ?_
      refine agree_bind (agree_note _ _) fun _ _ _ => agree_pure ?_
      exact ⟨rfl, Value.avoids_symbol.2 hname⟩
    | [] | [_] | _ :: _ :: _ :: _ => exact agree_fail _ rfl
  | defun =>
    match operands with
    | [target, parameterList, body] =>
      refine agree_bind (agree_ofExcept (outcome_nameOf (h target (by simp)))) ?_
      rintro name _ ⟨rfl, hname⟩
      refine agree_bind (agree_ofExcept (outcome_parametersOf (h parameterList (by simp))))
        fun parameters parameters' hparameters => ?_
      refine agree_bind (agree_newClosure hparameters (h body (by simp)) scope)
        fun closure closure' hclosure => ?_
      refine agree_bind (agree_set hclosure scope) fun _ _ _ => ?_
      refine agree_bind (agree_note _ _) fun _ _ _ => agree_pure ?_
      exact ⟨rfl, Value.avoids_symbol.2 hname⟩
    | [] | [_] | [_, _] | _ :: _ :: _ :: _ :: _ => exact agree_fail _ rfl

/-- Relabelled code in a relabelled scope is evaluated alike. -/
lemma agree_evaluateWith {code : Value} (h : code.Avoids K.hidden) (scope : Scope) :
    K.Agree K.SameValue (evaluateWith evaluate scope code)
      (evaluateWith evaluate' (K.scope scope) (code.relabel K.toRelabelling)) := by
  cases code with
  | symbol name => exact agree_lookup (Value.avoids_symbol.1 h) scope
  | list items =>
    rw [Value.relabel_list]
    rw [Value.avoids_list] at h
    match items with
    | [] => exact agree_pure ⟨rfl, Value.avoids_inert rfl⟩
    | head :: operands =>
      obtain ⟨hhead, hoperands⟩ := List.forall_mem_cons.1 h
      rw [List.map_cons, evaluateWith, evaluateWith, formOf?_relabel]
      cases formOf? head with
      | some form => exact agree_formWith he hR form hoperands scope
      | none =>
        refine agree_application he hR (hR _ _ _ _ ⟨rfl, rfl, hhead⟩) ?_
        rw [List.forall₂_map_right_iff, List.forall₂_same]
        exact fun operand hmem => hR _ _ _ _ ⟨rfl, rfl, hoperands operand hmem⟩
  | _ => exact agree_pure ⟨rfl, h⟩

end

/-! ### Evaluation -/

/-- **Corresponding code is evaluated alike.**  If relabelled code in a relabelled scope
corresponds, and if evaluating corresponding code takes corresponding steps, then from
corresponding stores evaluations of corresponding code come to corresponding results and
stores at every depth. -/
theorem respects_evaluate {R : Scope → Value → Scope → Value → Prop}
    (hstep : ∀ evaluate evaluate', K.Respects R evaluate evaluate' →
      ∀ scope code scope' code', R scope code scope' code' →
        K.Agree K.SameValue (evaluateWith evaluate scope code)
          (evaluateWith evaluate' scope' code'))
    (depth : Nat) : K.Respects R (evaluate depth) (evaluate depth) := by
  induction depth with
  | zero => exact fun _ _ _ _ _ => agree_fail _ rfl
  | succ depth ih =>
    intro scope code scope' code' h
    exact agree_bind (agree_note _ _) fun _ _ _ => hstep _ _ ih _ _ _ _ h

/-- Relabelled code in a relabelled scope is evaluated alike. -/
theorem respects_sameCode (depth : Nat) :
    K.Respects K.SameCode (evaluate depth) (evaluate depth) := by
  refine respects_evaluate (fun evaluate evaluate' he scope code scope' code' h => ?_) depth
  obtain ⟨rfl, rfl, hcode⟩ := h
  exact agree_evaluateWith he (fun _ _ _ _ h => h) hcode scope

end Correspondence

end MiniLisp
