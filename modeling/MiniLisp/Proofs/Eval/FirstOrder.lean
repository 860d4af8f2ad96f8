/-
# Evaluation without closures

If no closure is bound where the code is evaluated, none is in the code and the code makes none,
then it never gets hold of one, whatever lists are bound to names and whatever the names of native
functions are bound to.  Without closures nothing that evaluation gives is evaluated in its turn:
each part of the code is visited once at most, so evaluation ends, in no more visits than the code
has nodes.

That there are no closures is an `Invariant`.  What evaluation visits is known wherever no value
is a closure, `Invariant.walks_evaluate`.
-/
import Mathlib.Data.List.Flatten
import MiniLisp.Proofs.Eval.Closed
import MiniLisp.Proofs.Eval.Depth
import MiniLisp.Proofs.Eval.Failure

namespace MiniLisp

open Evaluation
open scoped List

/-! ### Sub-expressions -/

namespace Value

/-- Whether code is a list headed by the symbol of quotation. -/
def isQuotation : Value → Bool
  | .list (head :: _) => formOf? head = some .quotation
  | _ => false

mutual

/-- The number of nodes of code: its atoms, symbols and lists, as often as they occur. -/
def nodes : Value → Nat
  | .list items => nodesAll items + 1
  | _ => 1

/-- The number of nodes of some codes. -/
def nodesAll : List Value → Nat
  | [] => 0
  | code :: codes => nodes code + nodesAll codes

end

mutual

/-- The sub-expressions of code in the order in which they are written, each as often as it
occurs: the code itself and what is in it, but nothing that is in a quotation. -/
def unquoted : Value → List Value
  | .list items => .list items :: if isQuotation (.list items) then [] else unquotedAll items
  | code => [code]

/-- The sub-expressions of some codes. -/
def unquotedAll : List Value → List Value
  | [] => []
  | code :: codes => unquoted code ++ unquotedAll codes

end

lemma unquotedAll_eq_flatMap (codes : List Value) :
    unquotedAll codes = codes.flatMap unquoted := by
  induction codes with
  | nil => rfl
  | cons code codes ih => rw [unquotedAll, ih, List.flatMap_cons]

lemma nodes_pos (code : Value) : 0 < code.nodes := by
  cases code <;> simp [nodes]

lemma nodes_le_nodesAll {code : Value} {codes : List Value} (h : code ∈ codes) :
    code.nodes ≤ nodesAll codes := by
  induction codes with
  | nil => cases h
  | cons first codes ih =>
    rw [nodesAll]
    rcases List.mem_cons.1 h with rfl | h
    · exact Nat.le_add_right _ _
    · exact Nat.le_trans (ih h) (Nat.le_add_left _ _)

lemma length_unquotedAll_le_nodesAll {codes : List Value}
    (h : ∀ code ∈ codes, code.unquoted.length ≤ code.nodes) :
    (unquotedAll codes).length ≤ nodesAll codes := by
  induction codes with
  | nil => exact Nat.le_refl 0
  | cons code codes ih =>
    rw [unquotedAll, nodesAll, List.length_append]
    exact Nat.add_le_add (h code List.mem_cons_self)
      (ih fun other hother => h other (List.mem_cons_of_mem _ hother))

lemma length_unquoted_le_nodes (code : Value) : code.unquoted.length ≤ code.nodes := by
  induction code using induction with
  | inert code h =>
    cases code with
    | symbol | list | closure => cases h
    | _ => exact Nat.le_refl 1
  | symbol name => exact Nat.le_refl 1
  | list items ih =>
    rw [unquoted, nodes, List.length_cons, Nat.add_le_add_iff_right]
    split
    · exact Nat.zero_le _
    · exact length_unquotedAll_le_nodesAll ih
  | closure => exact Nat.le_refl 1

/-! ### Sub-expressions and evaluated parts -/

lemma nodes_lt_of_mem_parts {code part : Value} (h : part ∈ code.parts) :
    part.nodes < code.nodes := by
  obtain ⟨items, rfl, hmem⟩ := exists_list_of_mem_parts h
  rw [nodes]
  exact Nat.lt_succ_of_le (nodes_le_nodesAll hmem)

/-- Some elements of a list, in their order, are its parts. -/
lemma parts_sublist (items : List Value) : parts (.list items) <+ items := by
  unfold parts
  split
  · rename_i head operands heq
    obtain rfl := Value.list.inj heq
    split
    · exact List.Sublist.refl _
    · exact List.sublist_cons_self _ _
    · exact (List.sublist_cons_self _ _).trans (List.sublist_cons_self _ _)
    · exact List.nil_sublist _
  · exact List.nil_sublist _

lemma parts_of_isQuotation {code : Value} (h : code.isQuotation) : code.parts = [] := by
  cases code with
  | list items =>
    cases items with
    | nil => rfl
    | cons head operands =>
      have hhead : formOf? head = some .quotation := of_decide_eq_true h
      simp only [parts, hhead]
  | _ => rfl

/-- What is evaluated with code is not in a quotation. -/
lemma parts_sublist_unquoted (code : Value) :
    code :: code.parts.flatMap unquoted <+ code.unquoted := by
  cases code with
  | list items =>
    rw [unquoted]
    refine List.Sublist.cons_cons _ ?_
    split
    · rename_i hquotation
      rw [parts_of_isQuotation hquotation]
      exact List.Sublist.refl _
    · rw [unquotedAll_eq_flatMap]
      exact (parts_sublist items).flatMap unquoted
  | _ => exact List.Sublist.refl _

lemma mem_unquoted_self (code : Value) : code ∈ code.unquoted :=
  (parts_sublist_unquoted code).subset List.mem_cons_self

lemma unquoted_subset_of_mem_parts {code part : Value} (h : part ∈ code.parts) :
    part.unquoted ⊆ code.unquoted := fun _ hsub =>
  (parts_sublist_unquoted code).subset
    (List.mem_cons_of_mem _ (List.mem_flatMap.2 ⟨part, h, hsub⟩))

end Value

/-! ### No closures -/

/-- No closure is bound in the frames of a scope, nor in a list that is bound there. -/
def Store.IsFirstOrder (σ : Store) (scope : Scope) : Prop :=
  ∀ id ∈ scope.frames, ∀ binding ∈ (σ.frame id).bindings, binding.2.closures = []

namespace Store.IsFirstOrder

variable {σ : Store} {scope : Scope} (h : σ.IsFirstOrder scope)

include h

lemma closures_of_lookup? {name : String} {v : Value} (hv : σ.lookup? scope name = some v) :
    v.closures = [] := by
  obtain ⟨id, hid, hmem⟩ := exists_mem_of_lookup? hv
  exact h id hid _ hmem

lemma set {v : Value} (hv : v.closures = []) (name : String) :
    (σ.set scope name v).IsFirstOrder scope := by
  intro id hid binding hbinding
  rcases mem_frame_set _ _ hbinding with ⟨-, rfl⟩ | hbinding
  · exact hv
  · exact h id hid binding hbinding

end Store.IsFirstOrder

namespace Value

/-- No closure is in the code, and none is made by it: outside quotations there is no list that
is headed by the symbol of a function definition. -/
structure IsFirstOrder (code : Value) : Prop where
  closures_eq : code.closures = []
  not_mem_unquoted (operands : List Value) : SpecialForm.defun.code operands ∉ code.unquoted

lemma IsFirstOrder.of_mem_parts {code part : Value} (h : code.IsFirstOrder)
    (hpart : part ∈ code.parts) : part.IsFirstOrder where
  closures_eq := by
    obtain ⟨items, rfl, hmem⟩ := exists_list_of_mem_parts hpart
    exact closures_list_eq_nil_iff.1 h.closures_eq part hmem
  not_mem_unquoted operands hmem :=
    h.not_mem_unquoted operands (unquoted_subset_of_mem_parts hpart hmem)

lemma closures_closure_ne (stamp : Nat) (parameters : List String) (body : Value)
    (scope : Scope) : closures (.closure stamp parameters body scope) ≠ [] :=
  List.cons_ne_nil _ _

end Value

/-- That there are no closures where the code is evaluated, in the code and among the values. -/
def Invariant.firstOrder (scope : Scope) : Invariant where
  store _ σ := σ.IsFirstOrder scope
  code _ inside code := inside = scope ∧ code.IsFirstOrder
  value _ v := v.closures = []
  code_append _ h := h
  value_append _ h := h
  code_parts h hpart := ⟨h.1, h.2.of_mem_parts hpart⟩
  value_plain _ h := Value.closures_of_isPlain h
  value_self h _ := h.2.closures_eq
  value_quoted h := Value.closures_list_eq_nil_iff.1 h.2.closures_eq _ (by simp)
  value_lookup := by
    rintro past σ inside name v hσ ⟨rfl, -⟩ hv
    exact hσ.closures_of_lookup? hv
  store_visited h _ := h
  store_parameter := by
    rintro past σ inside name code v hσ ⟨rfl, -⟩ hv
    exact hσ.set hv name
  store_function := fun _ hcode =>
    absurd (Value.mem_unquoted_self _) (hcode.2.not_mem_unquoted _)
  store_entered := fun _ hf _ => absurd hf (Value.closures_closure_ne _ _ _ _)
  code_entered := fun _ hf _ => absurd hf (Value.closures_closure_ne _ _ _ _)

/-! ### What evaluation visits -/

/-- The code and the scope of an evaluation that begins. -/
def Event.visited? : Event → Option (Value × Scope)
  | .visited code scope => some (code, scope)
  | _ => none

/-- The evaluations that a run consists of, in the order in which they begin. -/
def Run.visits {α : Type} (run : Run α) : List (Value × Scope) :=
  run.trace.filterMap Event.visited?

lemma ok_ne_tooDeep {α : Type} (a : α) : (.ok a : Except EvalError α) ≠ .error .tooDeep := by
  simp

namespace Invariant

variable {α β : Type} (I : Invariant)

/-- An evaluation does not nest too deeply, and what it evaluates, all in one scope, are some of
some codes, in their order and none twice. -/
def Walks (past : List Event) (scope : Scope) (codes : List Value) (m : Evaluation α) : Prop :=
  ∀ σ, I.store past σ →
    (m σ).result ≠ .error .tooDeep ∧ (m σ).visits <+ codes.map fun code => (code, scope)

variable {I} {past : List Event} {scope : Scope} {codes codes' : List Value}

/-! ### Evaluations in general -/

lemma Walks.mono {m : Evaluation α} (h : I.Walks past scope codes m) (hle : codes <+ codes') :
    I.Walks past scope codes' m :=
  fun σ hσ => ⟨(h σ hσ).1, (h σ hσ).2.trans (hle.map _)⟩

/-- An evaluation may visit nothing at all. -/
lemma walks_of_visits_eq_nil {m : Evaluation α}
    (h : ∀ σ, (m σ).result ≠ .error .tooDeep ∧ (m σ).visits = []) : I.Walks past scope codes m := by
  intro σ _
  rw [(h σ).2]
  exact ⟨(h σ).1, List.nil_sublist _⟩

lemma walks_pure (a : α) : I.Walks past scope codes (pure a) :=
  walks_of_visits_eq_nil fun _ => ⟨ok_ne_tooDeep a, rfl⟩

lemma walks_fail {e : EvalError} (h : e ≠ .tooDeep) :
    I.Walks past scope codes (fail e : Evaluation α) :=
  walks_of_visits_eq_nil fun _ => ⟨fun heq => h (Except.error.inj heq), rfl⟩

lemma walks_bind {first : Evaluation α} {next : α → Evaluation β}
    {mid : List Event → α → Prop} (hfirst : I.Walks past scope codes first)
    (hkeeps : I.Keeps past first mid)
    (hnext : ∀ more a, mid (past ++ more) a → I.Walks (past ++ more) scope codes' (next a)) :
    I.Walks past scope (codes ++ codes') (first >>= next) := by
  intro σ hσ
  obtain ⟨hne, hvisits⟩ := hfirst σ hσ
  obtain ⟨hstore, hmid⟩ := hkeeps σ hσ
  rw [List.map_append]
  cases hresult : (first σ).result with
  | error e =>
    rw [bind_of_error next hresult]
    refine ⟨fun heq => hne ?_, hvisits.trans (List.sublist_append_left _ _)⟩
    rw [hresult, Except.error.inj heq]
  | ok a =>
    obtain ⟨hne', hvisits'⟩ := hnext _ a (hmid a hresult) _ hstore
    rw [bind_of_ok next hresult]
    refine ⟨hne', ?_⟩
    rw [Run.visits, List.filterMap_append]
    exact hvisits.append hvisits'

/-! ### The parts of evaluation -/

lemma walks_lookup (name : String) : I.Walks past scope codes (lookup scope name) := by
  refine walks_of_visits_eq_nil fun σ => ?_
  rw [lookup]
  cases σ.lookup? scope name with
  | some v => exact ⟨ok_ne_tooDeep v, rfl⟩
  | none => exact ⟨by simp, rfl⟩

/-- To apply what is no closure does not evaluate any code. -/
lemma walks_applyWith {evaluate : Evaluator} {f : Value} (hf : f.closures = [])
    (arguments : List Value) : I.Walks past scope codes (applyWith evaluate f arguments) := by
  cases f with
  | native f => exact walks_of_visits_eq_nil fun _ => ⟨Native.apply_ne_tooDeep, rfl⟩
  | closure stamp parameters body captured =>
    exact absurd hf (Value.closures_closure_ne _ _ _ _)
  | _ => exact walks_fail (EvalError.about_ne_tooDeep (by simp))

section

variable {evaluate : Evaluator} (hkeeps : I.Respects evaluate)

include hkeeps

lemma walks_evaluateEach (hcode : ∀ code ∈ codes, I.code past scope code)
    (he : ∀ code ∈ codes, ∀ past, I.code past scope code →
      I.Walks past scope code.unquoted (evaluate scope code)) :
    I.Walks past scope (codes.flatMap Value.unquoted) (evaluateEach evaluate scope codes) := by
  induction codes generalizing past with
  | nil => exact walks_pure _
  | cons code codes ih =>
    have hfirst := hcode code List.mem_cons_self
    rw [List.flatMap_cons]
    refine walks_bind (he code List.mem_cons_self past hfirst) (hkeeps _ _ _ hfirst)
      fun more v _ => ?_
    have hrest : ∀ code ∈ codes, I.code (past ++ more) scope code := fun code hmem =>
      I.code_append more (hcode code (List.mem_cons_of_mem _ hmem))
    rw [← List.append_nil (codes.flatMap Value.unquoted)]
    exact walks_bind (ih hrest fun code hmem => he code (List.mem_cons_of_mem _ hmem))
      (keeps_evaluateEach hkeeps hrest) fun _ _ _ => walks_pure _

lemma walks_conditional {condition consequent alternative : Value}
    (hcode : I.code past scope
      (SpecialForm.conditional.code [condition, consequent, alternative]))
    (he : ∀ part ∈ [condition, consequent, alternative], ∀ past, I.code past scope part →
      I.Walks past scope part.unquoted (evaluate scope part)) :
    I.Walks past scope ([condition, consequent, alternative].flatMap Value.unquoted)
      (formWith evaluate scope .conditional [condition, consequent, alternative]) := by
  rw [List.flatMap_cons]
  have hcondition : I.code past scope condition := I.code_parts hcode (by simp)
  refine walks_bind (he _ (by simp) _ hcondition) (hkeeps _ _ _ hcondition) fun more v _ => ?_
  have hcode := I.code_append more hcode
  -- The branch that is not chosen is left out.
  split
  · exact (he consequent (by simp) _ (I.code_parts hcode (by simp))).mono (by simp)
  · exact (he alternative (by simp) _ (I.code_parts hcode (by simp))).mono (by simp)

variable (hvalue : ∀ past v, I.value past v → v.closures = [])

include hvalue

lemma walks_application {head : Value} {operands : List Value} (hhead : formOf? head = none)
    (hcode : ∀ code ∈ head :: operands, I.code past scope code)
    (he : ∀ code ∈ head :: operands, ∀ past, I.code past scope code →
      I.Walks past scope code.unquoted (evaluate scope code)) :
    I.Walks past scope ((head :: operands).flatMap Value.unquoted)
      (evaluateWith evaluate scope (.list (head :: operands))) := by
  rw [evaluateWith_application_eq_each evaluate scope operands hhead,
    ← List.append_nil (List.flatMap _ _)]
  refine walks_bind (walks_evaluateEach hkeeps hcode he) (keeps_evaluateEach hkeeps hcode)
    fun more vs hvs => walks_applyWith ?_ vs.tail
  cases vs with
  | nil => rfl
  | cons f arguments => exact hvalue _ f (hvs f List.mem_cons_self)

/-- Where no value is a closure, evaluation walks over the parts of code. -/
lemma walks_evaluateWith {code : Value} (hcode : I.code past scope code)
    (he : ∀ part ∈ code.parts, ∀ past, I.code past scope part →
      I.Walks past scope part.unquoted (evaluate scope part)) :
    I.Walks past scope (code.parts.flatMap Value.unquoted) (evaluateWith evaluate scope code) := by
  cases shape code with
  | self hself =>
    rw [evaluateWith_self evaluate scope hself]
    exact walks_pure _
  | symbol name => exact walks_lookup name
  | unit => exact walks_pure _
  | quotation datum =>
    rw [evaluateWith_form]
    exact walks_pure _
  | conditional condition consequent alternative =>
    rw [evaluateWith_form]
    exact walks_conditional hkeeps hcode he
  | defparameter name operand =>
    rw [evaluateWith_form, formWith_defparameter, Value.parts_defparameter, List.flatMap_cons]
    have hoperand : I.code past scope operand := I.code_parts hcode (by simp)
    refine walks_bind (he _ (by simp) _ hoperand) (hkeeps _ _ _ hoperand) fun more v _ => ?_
    exact walks_of_visits_eq_nil fun _ => ⟨ok_ne_tooDeep _, rfl⟩
  | defun name parameters body =>
    rw [definitionCode, evaluateWith_form]
    refine walks_of_visits_eq_nil fun σ => ?_
    rw [formWith_defun]
    exact ⟨ok_ne_tooDeep _, rfl⟩
  | malformed form operands e hform =>
    rw [evaluateWith_form, hform]
    exact walks_fail (SpecialForm.refuses_of_malformed hform).ne_tooDeep
  | application head operands hhead =>
    have hparts : (Value.list (head :: operands)).parts = head :: operands :=
      Value.parts_application hhead operands
    rw [hparts] at he ⊢
    exact walks_application hkeeps hvalue hhead
      (fun element hmem => I.code_parts hcode (by rwa [hparts])) he

end

/-! ### Evaluation -/

/-- **Where no value is a closure, evaluation walks over the code.**  A depth is enough that is no
less than the number of nodes of the code. -/
theorem walks_evaluate (hvalue : ∀ past v, I.value past v → v.closures = []) (depth : Nat) :
    ∀ past code, I.code past scope code → code.nodes ≤ depth →
      I.Walks past scope code.unquoted (evaluate depth scope code) := by
  induction depth with
  | zero => exact fun _ code _ hdepth => absurd (Value.nodes_pos code) (Nat.not_lt.2 hdepth)
  | succ depth ih =>
    intro past code hcode hdepth
    have hnote : I.Walks past scope [code] (note (.visited code scope)) :=
      fun _ _ => ⟨ok_ne_tooDeep (), List.Sublist.refl _⟩
    refine (walks_bind hnote (keeps_visited hcode) fun more _ hcode => ?_).mono
      (Value.parts_sublist_unquoted code)
    refine walks_evaluateWith (I.respects_evaluate depth) hvalue hcode fun part hpart past h => ?_
    have hlt := Value.nodes_lt_of_mem_parts hpart
    exact ih past part h (by omega)

end Invariant

/-- **Without closures evaluation ends, and data is never run as code.**  If there is no closure
where the code is evaluated nor in the code, and no list outside its quotations is headed by the
symbol of a function definition, then evaluation ends with a value or an error and any depth is
enough that is no less than the number of nodes of the code.  All that it evaluates, in the order
in which it does, are sub-expressions of the code that are not quoted, each occurrence once at
most and all in the same scope; so nothing is evaluated that a name, a quotation or a function
gave, and there are no more evaluations than the code has nodes. -/
theorem evaluation_without_closures_ends (scope : Scope) (code : Value) (σ : Store)
    (hstore : σ.IsFirstOrder scope) (hcode : code.IsFirstOrder) :
    let run := evaluate code.nodes scope code σ
    (∀ depth, code.nodes ≤ depth → evaluate depth scope code σ = run) ∧
      run.result ≠ .error .tooDeep ∧
      run.visits <+ code.unquoted.map (fun part => (part, scope)) ∧
      run.visits.length ≤ code.nodes := by
  intro run
  obtain ⟨hne, hvisits⟩ := (Invariant.firstOrder scope).walks_evaluate (fun _ _ h => h) code.nodes
    [] code ⟨rfl, hcode⟩ (Nat.le_refl _) σ hstore
  refine ⟨fun depth hdepth => evaluate_of_le hdepth hne, hne, hvisits, ?_⟩
  calc run.visits.length
      ≤ (code.unquoted.map fun part => (part, scope)).length := hvisits.length_le
    _ = code.unquoted.length := List.length_map _
    _ ≤ code.nodes := code.length_unquoted_le_nodes

/-- A name means code-like data, and the name of a native function too. -/
theorem evaluation_without_closures_ends_rebound :
    let root : Scope := .root 0
    let data : Value := .list [.symbol "y", SpecialForm.defun.code []]
    let σ := (Store.empty.grow.set root "x" data).set root "+" data
    let call : Value := .list [.symbol "+", .symbol "x", SpecialForm.quotation.code [data]]
    let code := SpecialForm.conditional.code [.symbol "x", call, .list [.symbol "later"]]
    let run := evaluate code.nodes root code σ
    σ.IsFirstOrder root ∧ code.IsFirstOrder ∧
      run.visits <+ code.unquoted.map (fun part => (part, root)) ∧
      run.visits.length ≤ code.nodes ∧ run.visits.length = 6 ∧ code.nodes = 14 := by
  intro root data σ call code run
  have hempty : Store.empty.grow.IsFirstOrder root := by
    intro id _ binding hbinding
    rw [Store.frame_grow, Store.frame_of_size_le _ (Nat.zero_le _)] at hbinding
    cases hbinding
  have hstore : σ.IsFirstOrder root := (hempty.set rfl "x").set rfl "+"
  have hcode : code.IsFirstOrder := by
    refine ⟨rfl, fun operands hmem => ?_⟩
    simp [code, call, SpecialForm.code, SpecialForm.name, Value.unquoted, Value.unquotedAll,
      Value.isQuotation, formOf?, SpecialForm.ofName?, SpecialForm.all] at hmem
  obtain ⟨-, -, hvisits, hlength⟩ := evaluation_without_closures_ends root code σ hstore hcode
  exact ⟨hstore, hcode, hvisits, hlength, by decide +kernel, rfl⟩

end MiniLisp
