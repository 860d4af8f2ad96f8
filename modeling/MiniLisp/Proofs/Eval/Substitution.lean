/-
# Calls as substitution

A call evaluates the body of the closure in a new frame that binds the parameters to the
arguments.  As long as the body defines nothing itself, it may as well be evaluated where
the closure was made, with a quoted argument in the place of every parameter that is
evaluated.  The argument has to be quoted, or else it would be evaluated once more.

The call has one frame more, and the frames made during the call come after it.  But for
that the two runs agree to every depth: in what they give, in the error that they end with
and in all that they leave bound.
-/
import MiniLisp.Proofs.Eval.Alteration
import MiniLisp.Proofs.Eval.Shift

namespace MiniLisp

open Evaluation

/-! ### Quiet code -/

namespace Value

mutual

/-- Whether code has no definition where it is evaluated. -/
def isQuiet : Value → Bool
  | .list (head :: operands) =>
    match formOf? head, operands with
    | none, operands => isQuiet head && areQuiet operands
    | some .quotation, _ => true
    | some .conditional, [condition, consequent, alternative] =>
      isQuiet condition && isQuiet consequent && isQuiet alternative
    | some .conditional, _ => true
    | some .defparameter, _ => false
    | some .defun, _ => false
  | _ => true

/-- Whether codes have no definition where they are evaluated. -/
def areQuiet : List Value → Bool
  | [] => true
  | code :: codes => isQuiet code && areQuiet codes

end

mutual

/-- Code with the quoted value for every name that has one, where the name is evaluated. -/
def substitute (s : String → Option Value) : Value → Value
  | .symbol name =>
    match s name with
    | some v => SpecialForm.quotation.code [v]
    | none => .symbol name
  | .list (head :: operands) =>
    match formOf? head, operands with
    | none, operands => .list (substitute s head :: substituteAll s operands)
    | some .conditional, [condition, consequent, alternative] =>
      .list [head, substitute s condition, substitute s consequent, substitute s alternative]
    | _, _ => .list (head :: operands)
  | code => code

/-- Codes with the quoted value for every name that has one. -/
def substituteAll (s : String → Option Value) : List Value → List Value
  | [] => []
  | code :: codes => substitute s code :: substituteAll s codes

end

lemma areQuiet_eq_all (codes : List Value) : areQuiet codes = codes.all isQuiet := by
  induction codes with
  | nil => rfl
  | cons code codes ih => rw [areQuiet, List.all_cons, ih]

lemma isQuiet_application {head : Value} (h : formOf? head = none) {operands : List Value} :
    isQuiet (.list (head :: operands)) ↔ ∀ code ∈ head :: operands, code.isQuiet := by
  rw [isQuiet.eq_def]
  simp only [h, areQuiet_eq_all, Bool.and_eq_true, List.all_eq_true, List.forall_mem_cons]

@[simp] lemma isQuiet_conditional {condition consequent alternative : Value} :
    isQuiet (SpecialForm.conditional.code [condition, consequent, alternative]) ↔
      (condition.isQuiet ∧ consequent.isQuiet) ∧ alternative.isQuiet := by
  rw [SpecialForm.code, isQuiet.eq_def]
  simp only [formOf?_name, Bool.and_eq_true]

@[simp] lemma not_isQuiet_defparameter (operands : List Value) :
    ¬ isQuiet (SpecialForm.defparameter.code operands) := by
  rw [SpecialForm.code, isQuiet.eq_def]
  simp only [formOf?_name, Bool.false_eq_true, not_false_eq_true]

@[simp] lemma not_isQuiet_defun (operands : List Value) :
    ¬ isQuiet (SpecialForm.defun.code operands) := by
  rw [SpecialForm.code, isQuiet.eq_def]
  simp only [formOf?_name, Bool.false_eq_true, not_false_eq_true]

/-- What quiet code evaluates is quiet. -/
lemma isQuiet_of_mem_parts {code part : Value} (h : code.isQuiet) (hpart : part ∈ code.parts) :
    part.isQuiet := by
  unfold parts at hpart
  split at hpart
  · rename_i head operands
    split at hpart
    · rename_i hhead
      exact (isQuiet_application hhead).1 h part hpart
    · rename_i hhead
      rw [formOf?_eq_some_iff.1 hhead] at h
      obtain ⟨⟨hcondition, hconsequent⟩, halternative⟩ := isQuiet_conditional.1 h
      simp only [List.mem_cons, List.not_mem_nil, or_false] at hpart
      rcases hpart with rfl | rfl | rfl
      exacts [hcondition, hconsequent, halternative]
    · rename_i hhead
      rw [formOf?_eq_some_iff.1 hhead] at h
      exact absurd h (not_isQuiet_defparameter _)
    · cases hpart
  · cases hpart

/-! ### Substituting -/

variable {s : String → Option Value}

lemma substituteAll_eq_map (codes : List Value) :
    substituteAll s codes = codes.map (substitute s) := by
  induction codes with
  | nil => rfl
  | cons code codes ih => rw [substituteAll, List.map_cons, ih]

lemma substitute_symbol_some {name : String} {v : Value} (h : s name = some v) :
    substitute s (.symbol name) = SpecialForm.quotation.code [v] := by
  rw [substitute, h]

lemma substitute_symbol_none {name : String} (h : s name = none) :
    substitute s (.symbol name) = .symbol name := by
  rw [substitute, h]

lemma substitute_self {code : Value} (h : code.isSelfEvaluating) : substitute s code = code := by
  cases code with
  | symbol name => cases h
  | list items => cases h
  | _ => rfl

lemma substitute_application {head : Value} (h : formOf? head = none) (operands : List Value) :
    substitute s (.list (head :: operands)) = .list ((head :: operands).map (substitute s)) := by
  rw [substitute.eq_def]
  simp only [h, substituteAll_eq_map, List.map_cons]

lemma substitute_conditional (condition consequent alternative : Value) :
    substitute s (SpecialForm.conditional.code [condition, consequent, alternative]) =
      SpecialForm.conditional.code
        [substitute s condition, substitute s consequent, substitute s alternative] := by
  rw [SpecialForm.code, substitute.eq_def]
  simp only [formOf?_name, SpecialForm.code]

/-- Substituting in a list headed by a special form changes a conditional or nothing. -/
lemma substitute_form_cases (form : SpecialForm) (operands : List Value) :
    (∃ condition consequent alternative,
        form = .conditional ∧ operands = [condition, consequent, alternative]) ∨
      substitute s (form.code operands) = form.code operands := by
  by_cases h : form = .conditional ∧ operands.length = 3
  · obtain ⟨condition, consequent, alternative, rfl⟩ := List.length_eq_three.1 h.2
    exact Or.inl ⟨condition, consequent, alternative, h.1, rfl⟩
  · refine Or.inr ?_
    rw [SpecialForm.code, substitute.eq_def]
    simp only [formOf?_name]
    split
    · rename_i heq
      cases heq
    · rename_i heq
      cases heq
      exact absurd ⟨rfl, rfl⟩ h
    · rfl

/-- A list stays a list. -/
lemma exists_substitute_list (items : List Value) :
    ∃ items', substitute s (.list items) = .list items' := by
  cases items with
  | nil => exact ⟨[], rfl⟩
  | cons head operands =>
    cases hhead : formOf? head with
    | none => exact ⟨_, substitute_application hhead operands⟩
    | some form =>
      rw [formOf?_eq_some_iff.1 hhead]
      rcases substitute_form_cases form operands with ⟨_, _, _, rfl, rfl⟩ | h
      · exact ⟨_, substitute_conditional _ _ _⟩
      · exact ⟨_, h⟩

/-- An argument is never taken for a special form: it is quoted. -/
lemma formOf?_substitute {head : Value} (h : formOf? head = none) :
    formOf? (substitute s head) = none := by
  cases head with
  | symbol name =>
    cases hname : s name with
    | some v => rw [substitute_symbol_some hname]; rfl
    | none => rwa [substitute_symbol_none hname]
  | list items =>
    obtain ⟨items', h⟩ := exists_substitute_list items
    rw [h]
    rfl
  | _ => exact h

/-- Arguments are quoted, so they bring no definitions with them. -/
lemma isQuiet_substitute {code : Value} (h : code.isQuiet) : (substitute s code).isQuiet := by
  induction code using induction with
  | symbol name =>
    cases hname : s name with
    | some v => rw [substitute_symbol_some hname]; rfl
    | none => rw [substitute_symbol_none hname]; rfl
  | list items ih =>
    cases items with
    | nil => rfl
    | cons head operands =>
      cases hhead : formOf? head with
      | none =>
        have hquiet := (isQuiet_application hhead).1 h
        rw [substitute_application hhead]
        refine (isQuiet_application (formOf?_substitute hhead)).2 ?_
        exact List.forall_mem_map.2 fun code hmem => ih code hmem (hquiet code hmem)
      | some form =>
        rw [formOf?_eq_some_iff.1 hhead] at ih h ⊢
        rcases substitute_form_cases form operands with ⟨_, _, _, rfl, rfl⟩ | heq
        · obtain ⟨⟨hcondition, hconsequent⟩, halternative⟩ := isQuiet_conditional.1 h
          rw [← SpecialForm.code, substitute_conditional, isQuiet_conditional]
          exact ⟨⟨ih _ (by simp) hcondition, ih _ (by simp) hconsequent⟩,
            ih _ (by simp) halternative⟩
        · rwa [← SpecialForm.code, heq]
  | inert v hv =>
    have hself : v.isSelfEvaluating := by cases v <;> first | rfl | cases hv
    rwa [substitute_self hself]
  | closure => rfl

end Value

lemma definesOnly_isQuiet : Value.DefinesOnly [] (Value.isQuiet ·) where
  parts := Value.isQuiet_of_mem_parts
  parameter h := absurd h (Value.not_isQuiet_defparameter _)
  function h := absurd h (Value.not_isQuiet_defun _)

/-- Quiet code binds nothing in the frames that are there. -/
lemma frame_evaluate_of_isQuiet {code : Value} (h : code.isQuiet) (depth : Nat) (scope : Scope)
    (σ : Store) {id : FrameId} (hid : id < σ.frames.size) :
    (evaluate depth scope code σ).store.frame id = σ.frame id := by
  have hexcept := (definesOnly_isQuiet.evaluate h depth scope σ).except_eq id hid
  rw [Frame.except_nil, Frame.except_nil] at hexcept
  exact Frame.ext hexcept

/-! ### The frame of the call -/

/-- The last argument that a list of parameters gives to a name. -/
def lastArgument (parameters : List String) (arguments : List Value) (name : String) :
    Option Value :=
  (parameters.zip arguments).reverse.lookup name

section

variable (σ : Store) (parameters : List String) (arguments : List Value) (captured : Scope)

/-- The run of the call has one frame more, in which the parameters are bound. -/
def Correspondence.ofCall : Correspondence :=
  .shifting σ (σ.enter parameters arguments captured).2 1 0 []

/-- Code of the run without the call and code of the run of the call: relabelled code or, at
home, a part of the body with arguments in it and the part itself. -/
def Replaces (scope : Scope) (code : Value) (scope' : Scope) (code' : Value) : Prop :=
  (Correspondence.ofCall σ parameters arguments captured).SameCode scope code scope' code' ∨
    (scope = captured ∧ scope' = .inner σ.frames.size captured ∧ σ.Knows code' ∧ code'.isQuiet ∧
      code = code'.substitute (lastArgument parameters arguments))

variable {σ parameters arguments captured}

lemma matches_ofCall (h : σ.IsClosed) :
    (Correspondence.ofCall σ parameters arguments captured).Matches σ
      (σ.enter parameters arguments captured).2 :=
  matches_shifting h (σ.size_enter _ _ _) (σ.stamps_enter _ _ _)
    (fun id hid => by rw [Store.frame_enter_of_ne _ _ (Nat.ne_of_lt hid)])
    fun _ _ _ => Value.avoids_nil _

/-- The frame of the call stays as it is. -/
lemma get?_frame_call {σ₁ σ₂ : Store} {name : String}
    (h : (Correspondence.ofCall σ parameters arguments captured).Matches σ₁ σ₂) :
    (σ₂.frame σ.frames.size).get? name = lastArgument parameters arguments name := by
  rw [h.aside _ (notMem_range_shiftFrom (Nat.le_refl _) (Nat.lt_succ_self _))]
  exact Store.get?_frame_enter _ _ _ _ _

lemma mem_of_lastArgument {name : String} {v : Value}
    (h : lastArgument parameters arguments name = some v) : v ∈ arguments := by
  obtain ⟨before, after, heq, -⟩ := List.lookup_eq_some_iff.1 h
  have hmem : (name, v) ∈ (parameters.zip arguments).reverse := by
    rw [heq]
    exact List.mem_append_right _ List.mem_cons_self
  exact (List.of_mem_zip (List.mem_reverse.1 hmem)).2

section

variable (hcaptured : σ.Has captured) (harguments : ∀ v ∈ arguments, σ.Knows v)

include hcaptured harguments

/-- At home a name means what the frame of the call says, or else what it means outside. -/
lemma agree_lookup_home (name : String) (evaluate : Evaluator) :
    let K := Correspondence.ofCall σ parameters arguments captured
    K.Agree K.SameValue
      (evaluateWith evaluate captured
        (Value.substitute (lastArgument parameters arguments) (.symbol name)))
      (lookup (.inner σ.frames.size captured) name) := by
  intro K σ₁ σ₂ hσ
  have hframe : (σ₂.frame σ.frames.size).get? name = lastArgument parameters arguments name :=
    get?_frame_call hσ
  cases hname : lastArgument parameters arguments name with
  | some v =>
    have hlookup : lookup (.inner σ.frames.size captured) name σ₂ = ⟨.ok v, σ₂, []⟩ := by
      rw [lookup, Store.lookup?_inner, hframe, hname]
      rfl
    rw [Value.substitute_symbol_some hname, evaluateWith_form, hlookup]
    exact ⟨.ok ⟨(relabel_shifting (harguments v (mem_of_lastArgument hname))).symm,
      Value.avoids_nil v⟩, hσ⟩
  | none =>
    have hlookup : lookup (.inner σ.frames.size captured) name σ₂ =
        lookup (K.scope captured) (K.name name) σ₂ := by
      have hscope : K.scope captured = captured := scope_shifting hcaptured
      rw [lookup, lookup, Store.lookup?_inner, hframe, hname, hscope]
      rfl
    rw [Value.substitute_symbol_none hname, hlookup]
    exact Correspondence.agree_lookup List.not_mem_nil captured σ₁ σ₂ hσ

/-- A part of the body is evaluated like the same part with arguments in it. -/
lemma agree_evaluateWith_home {evaluate evaluate' : Evaluator} {code : Value}
    (he : (Correspondence.ofCall σ parameters arguments captured).Respects
      (Replaces σ parameters arguments captured) evaluate evaluate')
    (hknows : σ.Knows code) (hquiet : code.isQuiet) :
    let K := Correspondence.ofCall σ parameters arguments captured
    K.Agree K.SameValue
      (evaluateWith evaluate captured (code.substitute (lastArgument parameters arguments)))
      (evaluateWith evaluate' (.inner σ.frames.size captured) code) := by
  intro K
  have hsame : ∀ {v : Value}, σ.Knows v → K.SameValue v v := fun h =>
    ⟨(relabel_shifting h).symm, Value.avoids_nil _⟩
  have hpart : ∀ {part : Value}, σ.Knows part → part.isQuiet →
      Replaces σ parameters arguments captured captured
        (part.substitute (lastArgument parameters arguments)) (.inner σ.frames.size captured)
        part :=
    fun hknows hquiet => Or.inr ⟨rfl, rfl, hknows, hquiet, rfl⟩
  cases shape code with
  | self hself =>
    rw [Value.substitute_self hself, evaluateWith_self _ _ hself, evaluateWith_self _ _ hself]
    exact Correspondence.agree_pure (hsame hknows)
  | symbol name => exact agree_lookup_home hcaptured harguments name evaluate
  | unit => exact Correspondence.agree_pure ⟨rfl, Value.avoids_nil _⟩
  | quotation datum =>
    have hdatum : σ.Knows datum := Value.isBelow_list.1 hknows datum (by simp)
    rw [evaluateWith_form]
    exact Correspondence.agree_pure (hsame hdatum)
  | conditional condition consequent alternative =>
    obtain ⟨⟨hcondition, hconsequent⟩, halternative⟩ := Value.isQuiet_conditional.1 hquiet
    have hitems := Value.isBelow_list.1 hknows
    rw [Value.substitute_conditional, evaluateWith_form, evaluateWith_form]
    exact Correspondence.agree_conditional he (hpart (hitems _ (by simp)) hcondition)
      (hpart (hitems _ (by simp)) hconsequent) (hpart (hitems _ (by simp)) halternative)
  | defparameter => exact absurd hquiet (Value.not_isQuiet_defparameter _)
  | defun => exact absurd hquiet (Value.not_isQuiet_defun _)
  | malformed form operands e h =>
    rcases Value.substitute_form_cases form operands with ⟨_, _, _, rfl, rfl⟩ | heq
    · exact nomatch congrArg Run.result (congrFun (h (fun _ _ => pure .nil) captured) σ)
    · -- The scope does not matter, so the code is evaluated as relabelled code would be.
      have hoperands : operands.map (Value.relabel K.toRelabelling) = operands :=
        map_eq_self fun operand hmem => relabel_shifting
          (Value.isBelow_list.1 hknows operand (List.mem_cons_of_mem _ hmem))
      have hagree : K.Agree K.SameValue (formWith evaluate captured form operands)
          (formWith evaluate' (K.scope captured) form
            (operands.map (Value.relabel K.toRelabelling))) :=
        Correspondence.agree_formWith he (fun _ _ _ _ h => Or.inl h) form
          (fun operand _ => operand.avoids_nil) captured
      rw [hoperands, h, h] at hagree
      rwa [heq, evaluateWith_form, evaluateWith_form, h, h]
  | application head operands hhead =>
    have hitems := Value.isBelow_list.1 hknows
    have hquiets := (Value.isQuiet_application hhead).1 hquiet
    rw [Value.substitute_application hhead, List.map_cons,
      evaluateWith_application _ _ _ (Value.formOf?_substitute hhead),
      evaluateWith_application _ _ _ hhead]
    refine Correspondence.agree_application he (fun _ _ _ _ h => Or.inl h)
      (hpart (hitems _ List.mem_cons_self) (hquiets _ List.mem_cons_self)) ?_
    rw [List.forall₂_map_left_iff, List.forall₂_same]
    exact fun operand hmem => hpart (hitems operand (List.mem_cons_of_mem _ hmem))
      (hquiets operand (List.mem_cons_of_mem _ hmem))

/-- What a call does to any depth the replaced body does. -/
lemma respects_replaces (depth : Nat) :
    (Correspondence.ofCall σ parameters arguments captured).Respects
      (Replaces σ parameters arguments captured) (evaluate depth) (evaluate depth) := by
  refine Correspondence.respects_evaluate
    (fun evaluate evaluate' he scope code scope' code' h => ?_)
    depth
  rcases h with ⟨rfl, rfl, hcode⟩ | ⟨rfl, rfl, hknows, hquiet, rfl⟩
  · exact Correspondence.agree_evaluateWith he (fun _ _ _ _ h => Or.inl h) hcode scope
  · exact agree_evaluateWith_home hcaptured harguments he hknows hquiet

end

/-- **A call is a substitution.**  Take a closure whose body defines nothing where it is
evaluated, any arguments and any closed store.  Write into the body, in the place of every
parameter that is evaluated, the last argument for it, quoted; parameters without an argument
stay.  Evaluating that in the scope that the closure was made in does what the call does: the
one ends exactly if the other does, they give the same value or the same error with the same
message, and they leave the same bindings, while neither changes a frame that was there
before.  Scopes that are made meanwhile have numbers that are one more in the call. -/
theorem call_is_substitution (hσ : σ.IsClosed) {stamp : Nat} {body : Value}
    (hf : σ.Knows (.closure stamp parameters body captured)) (hquiet : body.isQuiet)
    (harguments : ∀ v ∈ arguments, σ.Knows v) :
    let called (depth : Nat) := apply depth (.closure stamp parameters body captured) arguments σ
    let replaced (depth : Nat) :=
      evaluate depth captured (body.substitute (lastArgument parameters arguments)) σ
    let shift := Value.relabel (.shifting σ 1 0)
    ((∃ depth, (called depth).result ≠ .error .tooDeep) ↔
        ∃ depth, (replaced depth).result ≠ .error .tooDeep) ∧
      ∀ depth,
        (called depth).result = relabelResult (.shifting σ 1 0) (replaced depth).result ∧
        (called depth).result.mapError EvalError.message =
          ((replaced depth).result.map shift).mapError EvalError.message ∧
        (∀ id, ((called depth).store.frame (shiftFrom σ.frames.size 1 id)).bindings =
          ((replaced depth).store.frame id).bindings.map fun (name, v) => (name, shift v)) ∧
        ∀ id < σ.frames.size, (called depth).store.frame id = σ.frame id ∧
          (replaced depth).store.frame id = σ.frame id := by
  intro called replaced shift
  obtain ⟨⟨-, hcaptured⟩, hbody⟩ := Value.isBelow_closure.1 hf
  have hhome : Replaces σ parameters arguments captured captured
      (body.substitute (lastArgument parameters arguments)) (.inner σ.frames.size captured) body :=
    Or.inr ⟨rfl, rfl, hbody, hquiet, rfl⟩
  have hentered : ∀ depth, called depth = _ := fun depth =>
    applyWith_closure (evaluate depth) stamp parameters body captured arguments σ
  have hcalled : ∀ depth,
      (called depth).result = relabelResult (.shifting σ 1 0) (replaced depth).result ∧
        ∀ id, ((called depth).store.frame (shiftFrom σ.frames.size 1 id)).bindings =
          ((replaced depth).store.frame id).bindings.map fun (name, v) => (name, shift v) := by
    intro depth
    obtain ⟨houtcome, hstore⟩ := respects_replaces hcaptured harguments depth _ _ _ _ hhome _ _
      (matches_ofCall hσ)
    rw [hentered]
    refine ⟨houtcome.eq_relabelResult, fun id => ?_⟩
    rw [← Frame.except_nil ((replaced depth).store.frame id), ← Frame.except_nil]
    exact hstore.bindings_eq id
  refine ⟨exists_congr fun depth => not_congr ?_, fun depth => ?_⟩
  · rw [(hcalled depth).1, relabelResult_eq_tooDeep_iff]
  · obtain ⟨hresult, hbindings⟩ := hcalled depth
    refine ⟨hresult, ?_, hbindings, fun id hid => ⟨?_, ?_⟩⟩
    · rw [hresult, mapError_message_relabelResult fun _ => rfl]
    · rw [hentered]
      have hlt : id < (σ.enter parameters arguments captured).2.frames.size := by
        rw [Store.size_enter]
        exact Nat.lt_succ_of_lt hid
      exact (frame_evaluate_of_isQuiet hquiet depth _ _ hlt).trans
        (Store.frame_enter_of_ne _ _ (Nat.ne_of_lt hid) _ _)
    · exact frame_evaluate_of_isQuiet (Value.isQuiet_substitute hquiet) depth captured σ hid

/-- The first of two arguments for `x` is dropped, the second one is a list that is not
evaluated again, and `y` has no argument, so it means what it means in the root. -/
theorem call_is_substitution_partial :
    let body := SpecialForm.conditional.code [.symbol "x", .symbol "x", .symbol "y"]
    let made := Store.empty.newDefault.2.newClosure ["x", "x", "y"] body (.root 0)
    let arguments := [.nil, .list [.symbol "x"]]
    let replaced := SpecialForm.conditional.code
      [SpecialForm.quotation.code [.list [.symbol "x"]],
        SpecialForm.quotation.code [.list [.symbol "x"]], .symbol "y"]
    (made.2.IsClosed ∧ made.2.Knows made.1 ∧ body.isQuiet ∧ ∀ v ∈ arguments, made.2.Knows v) ∧
      ∀ depth, (apply depth made.1 arguments made.2).result =
        relabelResult (.shifting made.2 1 0) (evaluate depth (.root 0) replaced made.2).result := by
  intro body made arguments replaced
  have hclosed : made.2.IsClosed := Store.isClosed_newDefault.newClosure _ _ _
  have hsize : made.2.frames.size = 1 := Store.size_newDefault
  have hroot : made.2.Has (.root 0) := fun id hid => by
    rw [hsize, List.mem_singleton.1 hid]
    exact Nat.zero_lt_one
  have hf : made.2.Knows made.1 :=
    Value.isBelow_closure.2 ⟨⟨Nat.lt_succ_self _, hroot⟩, nofun⟩
  have harguments : ∀ v ∈ arguments, made.2.Knows v :=
    List.forall_mem_cons.2 ⟨nofun, List.forall_mem_singleton.2 nofun⟩
  have hquiet : body.isQuiet := by decide
  refine ⟨⟨hclosed, hf, hquiet, harguments⟩, fun depth => ?_⟩
  have hresult := ((call_is_substitution hclosed hf hquiet harguments).2 depth).1
  exact hresult

end

end MiniLisp
