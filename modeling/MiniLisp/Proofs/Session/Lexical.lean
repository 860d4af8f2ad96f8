/-
# Scoping is lexical

In a session the scope of code tells where the code was written: code that stands in a line
within some definitions is evaluated only in scopes whose frames were made by applying
functions of just these definitions, one frame for each.  From where a function was called,
where it was stored meanwhile and what was quoted makes no difference.

The invariant says of a function, wherever it is held, that a definition made it and that
its scope mirrors the definitions around that one; of a frame, that one application made it
and that its names are those of the definition that was applied; and of each event, that it
was of this kind when it happened.
-/
import MiniLisp.Proofs.Reader.Image
import MiniLisp.Proofs.Scope.Store
import MiniLisp.Proofs.Session.Nesting
import MiniLisp.Proofs.Session.Run

namespace MiniLisp

section

variable (lines : Value → Prop) (root : Scope) (past : List Event)

/-- Code stands in a line, and the scope mirrors the definitions around it. -/
def Hosts (scope : Scope) (code : Value) : Prop :=
  ∃ line nest, lines line ∧ Within line nest code ∧ Mirrors past root scope nest

/-- A definition stands in a line and was evaluated, and the scope that it was evaluated in
mirrors the definitions around it. -/
def Definition.MadeIn (d : Definition) (captured : Scope) : Prop :=
  .functionDefined d.name d.parameters d.body captured ∈ past ∧
    Hosts lines root past captured d.code

/-- Every function that occurs in a value was made by a definition in a line. -/
def Value.IsLexical (v : Value) : Prop :=
  ∀ stamp parameters body captured, (closure stamp parameters body captured).Occurs v →
    ∃ name, Definition.MadeIn lines root past ⟨name, parameters, body⟩ captured

/-- What has to be so when an event happens, after what happened before it. -/
def Event.IsLexical : Event → Prop
  | .visited code scope => Hosts lines root past scope code
  | .entered parameters body arguments scope =>
    (∃ frame captured name, scope = .inner frame captured ∧
      Definition.MadeIn lines root past ⟨name, parameters, body⟩ captured) ∧
    ∀ v ∈ arguments, v.IsLexical lines root past
  | .parameterDefined name v scope =>
    v.IsLexical lines root past ∧
      ∃ code, Hosts lines root past scope (SpecialForm.defparameter.code [.symbol name, code])
  | .functionDefined name parameters body scope =>
    Hosts lines root past scope (definitionCode name parameters body)

end

section

variable {lines : Value → Prop} {root scope : Scope} {past later : List Event}

lemma Hosts.mono {code : Value} (h : Hosts lines root past scope code)
    (hsub : past ⊆ later) : Hosts lines root later scope code := by
  obtain ⟨line, nest, hline, hwithin, hmirrors⟩ := h
  exact ⟨line, nest, hline, hwithin, hmirrors.mono hsub⟩

lemma Definition.MadeIn.mono {d : Definition} (h : d.MadeIn lines root past scope)
    (hsub : past ⊆ later) : d.MadeIn lines root later scope :=
  ⟨hsub h.1, h.2.mono hsub⟩

/-! ### Values -/

namespace Value.IsLexical

variable {v : Value}

lemma mono (h : v.IsLexical lines root past) (hsub : past ⊆ later) :
    v.IsLexical lines root later := by
  intro stamp parameters body captured hoccurs
  obtain ⟨name, hmade⟩ := h stamp parameters body captured hoccurs
  exact ⟨name, hmade.mono hsub⟩

/-- There are no functions in what can be read. -/
lemma of_isReadable (h : Reader.IsReadable v) : v.IsLexical lines root past :=
  fun _ _ _ _ hoccurs => nomatch Reader.isReadable_of_occurs hoccurs h

lemma of_isPlain (h : v.isPlain) : v.IsLexical lines root past := by
  rintro stamp parameters body captured (_ | _)
  · cases h
  · cases h

lemma native (f : Native) : (Value.native f).IsLexical lines root past :=
  fun _ _ _ _ hoccurs => nomatch hoccurs

lemma closure {stamp : Nat} {d : Definition} (h : d.MadeIn lines root past scope) :
    (Value.closure stamp d.parameters d.body scope).IsLexical lines root past := by
  intro stamp' parameters body captured hoccurs
  cases hoccurs
  exact ⟨d.name, h⟩

end Value.IsLexical

/-! ### Frames -/

/-- The frame that an event made, if it made one. -/
def Event.made? : Event → Option FrameId
  | .entered _ _ _ scope => some scope.frame
  | _ => none

/-- Every frame but that of the root was made by one application. -/
structure Store.Accounts (root : Scope) (past : List Event) (σ : Store) : Prop where
  root_lt : root.frame < σ.frames.size
  made_lt : ∀ e ∈ past, ∀ id, e.made? = some id → id ≠ root.frame ∧ id < σ.frames.size
  unique : ∀ e ∈ past, ∀ e' ∈ past, ∀ id, e.made? = some id → e'.made? = some id → e = e'
  exists_made : ∀ id < σ.frames.size, id ≠ root.frame → ∃ e ∈ past, e.made? = some id

namespace Store.Accounts

variable {σ σ' : Store}

/-- Events that make no frame change nothing about who made the frames. -/
lemma append_of_made?_eq_none (h : σ.Accounts root past) {e : Event} (he : e.made? = none)
    (hsize : σ'.frames.size = σ.frames.size) : σ'.Accounts root (past ++ [e]) where
  root_lt := hsize ▸ h.root_lt
  made_lt := by
    intro first hfirst id hid
    rw [hsize]
    rcases List.mem_append.1 hfirst with hfirst | hfirst
    · exact h.made_lt first hfirst id hid
    · rw [List.mem_singleton.1 hfirst, he] at hid
      cases hid
  unique := by
    intro first hfirst second hsecond id hid hid'
    rcases List.mem_append.1 hfirst with hfirst | hfirst
    · rcases List.mem_append.1 hsecond with hsecond | hsecond
      · exact h.unique first hfirst second hsecond id hid hid'
      · rw [List.mem_singleton.1 hsecond, he] at hid'
        cases hid'
    · rw [List.mem_singleton.1 hfirst, he] at hid
      cases hid
  exists_made := by
    intro id hid hne
    obtain ⟨first, hfirst, hmade⟩ := h.exists_made id (hsize ▸ hid) hne
    exact ⟨first, List.mem_append_left _ hfirst, hmade⟩

/-- An application makes the frame that follows all others. -/
lemma enter (h : σ.Accounts root past) (parameters : List String) (body : Value)
    (arguments : List Value) (captured : Scope) :
    (σ.enter parameters arguments captured).2.Accounts root
      (past ++ [.entered parameters body arguments (σ.enter parameters arguments captured).1]) where
  root_lt := by
    rw [size_enter]
    exact Nat.lt_succ_of_lt h.root_lt
  made_lt := by
    intro first hfirst id hid
    rw [size_enter]
    rcases List.mem_append.1 hfirst with hfirst | hfirst
    · obtain ⟨hne, hlt⟩ := h.made_lt first hfirst id hid
      exact ⟨hne, Nat.lt_succ_of_lt hlt⟩
    · rw [List.mem_singleton.1 hfirst] at hid
      obtain rfl : σ.frames.size = id := Option.some.inj hid
      exact ⟨Nat.ne_of_gt h.root_lt, Nat.lt_succ_self _⟩
  unique := by
    -- The frames made before are not the new one, so the two events are both old or both new.
    have hold : ∀ e ∈ past, e.made? ≠ some σ.frames.size := fun e he hmade =>
      Nat.lt_irrefl _ (h.made_lt e he _ hmade).2
    intro first hfirst second hsecond id hid hid'
    rcases List.mem_append.1 hfirst with hfirst | hfirst <;>
      rcases List.mem_append.1 hsecond with hsecond | hsecond
    · exact h.unique first hfirst second hsecond id hid hid'
    · rw [List.mem_singleton.1 hsecond] at hid'
      exact absurd (hid.trans hid'.symm) (hold first hfirst)
    · rw [List.mem_singleton.1 hfirst] at hid
      exact absurd (hid'.trans hid.symm) (hold second hsecond)
    · rw [List.mem_singleton.1 hfirst, List.mem_singleton.1 hsecond]
  exists_made := by
    intro id hid hne
    rw [size_enter] at hid
    rcases Nat.lt_succ_iff_lt_or_eq.1 hid with hid | rfl
    · obtain ⟨first, hfirst, hmade⟩ := h.exists_made id hid hne
      exact ⟨first, List.mem_append_left _ hfirst, hmade⟩
    · exact ⟨_, List.mem_append_right _ (List.mem_singleton.2 rfl), rfl⟩

end Store.Accounts

/-! ### Stores -/

/-- What holds of the store after some events: of what happened, of the values that are
bound, and of the names that the frames of applications have. -/
structure Store.IsLexical (lines : Value → Prop) (root : Scope) (past : List Event)
    (σ : Store) : Prop where
  accounts : σ.Accounts root past
  events : ∀ before e after, past = before ++ e :: after → Event.IsLexical lines root before e
  values : ∀ id, ∀ binding ∈ (σ.frame id).bindings, binding.2.IsLexical lines root past
  names : ∀ parameters body arguments scope, .entered parameters body arguments scope ∈ past →
    ∀ binding ∈ (σ.frame scope.frame).bindings, binding.1 ∈ parameters ++ body.defined

namespace Store.IsLexical

variable {σ : Store}

/-- An event that changes no frame. -/
lemma visited (h : σ.IsLexical lines root past) {code : Value}
    (hcode : Hosts lines root past scope code) :
    σ.IsLexical lines root (past ++ [.visited code scope]) where
  accounts := h.accounts.append_of_made?_eq_none rfl rfl
  events := forall_events_concat h.events hcode
  values := fun id binding hbinding =>
    (h.values id binding hbinding).mono (List.subset_append_left _ _)
  names := by
    intro parameters body arguments scope hentered
    rcases List.mem_append.1 hentered with hentered | hentered
    · exact h.names parameters body arguments scope hentered
    · cases List.mem_singleton.1 hentered

/-- The names that code defines belong to the frame that it defines them in. -/
lemma mem_of_defined (h : σ.IsLexical lines root past) {code : Value} {name : String}
    (hcode : Hosts lines root past scope code) (hname : name ∈ code.defined)
    {parameters : List String} {body : Value} {arguments : List Value} {entered : Scope}
    (hentered : .entered parameters body arguments entered ∈ past)
    (hframe : entered.frame = scope.frame) : name ∈ parameters ++ body.defined := by
  obtain ⟨line, nest, -, hwithin, hmirrors⟩ := hcode
  cases hmirrors with
  | root => exact absurd hframe (h.accounts.made_lt _ hentered _ rfl).1
  | inner _ hmade _ =>
    -- One application made the frame, so the body around the code is the one that was applied.
    cases h.accounts.unique _ hentered _ hmade _ rfl (congrArg some hframe.symm)
    exact List.mem_append_right _ (hwithin.defined_subset hname)

/-- Making a closure changes no frame. -/
lemma newClosure (h : σ.IsLexical lines root past) (parameters : List String) (body : Value)
    (captured : Scope) :
    (σ.newClosure parameters body captured).2.IsLexical lines root past :=
  ⟨⟨h.accounts.root_lt, h.accounts.made_lt, h.accounts.unique, h.accounts.exists_made⟩,
    h.events, h.values, h.names⟩

/-- A definition binds one of the names that its code defines, and says so. -/
lemma set (h : σ.IsLexical lines root past) {code v : Value} {name : String} {e : Event}
    (hcode : Hosts lines root past scope code) (hname : name ∈ code.defined)
    (hmade : e.made? = none) (he : e.IsLexical lines root past)
    (hv : v.IsLexical lines root (past ++ [e])) :
    (σ.set scope name v).IsLexical lines root (past ++ [e]) where
  accounts := h.accounts.append_of_made?_eq_none hmade (size_set _ _ _ _)
  events := forall_events_concat h.events he
  values := by
    intro id binding hbinding
    rcases mem_frame_set _ _ hbinding with ⟨-, rfl⟩ | hbinding
    · exact hv
    · exact (h.values id binding hbinding).mono (List.subset_append_left _ _)
  names := by
    intro parameters body arguments entered hentered binding hbinding
    rcases List.mem_append.1 hentered with hentered | hentered
    · rcases mem_frame_set _ _ hbinding with ⟨hframe, rfl⟩ | hbinding
      · exact h.mem_of_defined hcode hname hentered hframe
      · exact h.names parameters body arguments entered hentered binding hbinding
    · rw [← List.mem_singleton.1 hentered] at hmade
      cases hmade

/-- An application binds parameters to arguments in a frame of its own. -/
lemma enter (h : σ.IsLexical lines root past) {d : Definition} {captured : Scope}
    {arguments : List Value} (hmade : d.MadeIn lines root past captured)
    (hargs : ∀ v ∈ arguments, v.IsLexical lines root past) :
    (σ.enter d.parameters arguments captured).2.IsLexical lines root
      (past ++ [.entered d.parameters d.body arguments
        (σ.enter d.parameters arguments captured).1]) where
  accounts := h.accounts.enter _ _ _ _
  events := forall_events_concat h.events ⟨⟨_, captured, d.name, rfl, hmade⟩, hargs⟩
  values := by
    intro id binding hbinding
    rcases mem_frame_enter _ _ hbinding with ⟨-, -, harg⟩ | hbinding
    · exact (hargs _ harg).mono (List.subset_append_left _ _)
    · exact (h.values id binding hbinding).mono (List.subset_append_left _ _)
  names := by
    intro parameters body arguments' entered hentered binding hbinding
    rcases mem_frame_enter _ _ hbinding with ⟨hframe, hname, -⟩ | hold
    · rcases List.mem_append.1 hentered with hentered | hentered
      · exact absurd hframe (Nat.ne_of_lt (h.accounts.made_lt _ hentered _ rfl).2)
      · cases List.mem_singleton.1 hentered
        exact List.mem_append_left _ hname
    · rcases List.mem_append.1 hentered with hentered | hentered
      · exact h.names parameters body arguments' entered hentered binding hold
      · -- The new frame has no bindings but the parameters.
        cases List.mem_singleton.1 hentered
        rw [enter_fst, Scope.frame_inner, frame_of_size_le _ (Nat.le_refl _)] at hold
        cases hold

end Store.IsLexical

end

/-! ### The invariant -/

/-- That scoping is lexical, for lines that can be read. -/
def Invariant.lexical (lines : Value → Prop) (root : Scope)
    (hlines : ∀ line, lines line → Reader.IsReadable line) : Invariant where
  store past σ := σ.IsLexical lines root past
  code past scope code := Hosts lines root past scope code
  value past v := v.IsLexical lines root past
  code_append _ h := h.mono (List.subset_append_left _ _)
  value_append _ h := h.mono (List.subset_append_left _ _)
  code_parts := by
    rintro past scope code part ⟨line, nest, hline, hwithin, hmirrors⟩ hpart
    exact ⟨line, nest, hline, hwithin.part hpart, hmirrors⟩
  value_plain _ h := .of_isPlain h
  value_self := by
    rintro past scope v ⟨line, nest, hline, hwithin, -⟩ -
    exact .of_isReadable (Reader.isReadable_of_occurs hwithin.occurs (hlines line hline))
  value_quoted := by
    rintro past scope v ⟨line, nest, hline, hwithin, -⟩
    have hquoted : v.Occurs (SpecialForm.quotation.code [v]) := .item (by simp) .refl
    exact .of_isReadable
      (Reader.isReadable_of_occurs (hquoted.trans hwithin.occurs) (hlines line hline))
  value_lookup := by
    intro past σ scope name v h _ hlookup
    obtain ⟨id, -, hbinding⟩ := Store.exists_mem_of_lookup? hlookup
    exact h.values id _ hbinding
  store_visited h hcode := h.visited hcode
  store_parameter h hcode hv :=
    h.set hcode (by simp) rfl ⟨hv, _, hcode⟩ (hv.mono (List.subset_append_left _ _))
  store_function := by
    intro past σ scope name parameters body h hcode
    refine (h.newClosure parameters body scope).set hcode (by simp) rfl hcode ?_
    exact Value.IsLexical.closure (d := ⟨name, parameters, body⟩)
      ⟨List.mem_append_right _ (List.mem_singleton.2 rfl),
        hcode.mono (List.subset_append_left _ _)⟩
  store_entered := by
    intro past σ stamp parameters body captured arguments h hf hargs
    obtain ⟨name, hmade⟩ := hf stamp parameters body captured .refl
    exact h.enter hmade hargs
  code_entered := by
    intro past σ stamp parameters body captured arguments _ hf _
    obtain ⟨name, hdefined, line, nest, hline, hwithin, hmirrors⟩ :=
      hf stamp parameters body captured .refl
    -- The body stands within its definition, and the new frame stands for the definition.
    refine ⟨line, ⟨name, parameters, body⟩ :: nest, hline,
      .body (d := ⟨name, parameters, body⟩) hwithin, ?_⟩
    exact .inner (List.mem_append_left _ hdefined)
      (List.mem_append_right _ (List.mem_singleton.2 rfl))
      (hmirrors.mono (List.subset_append_left _ _))

/-! ### Sessions -/

/-- At the start nothing happened and the root has only what is bound from the start. -/
lemma isLexical_fresh (lines : Value → Prop) :
    Session.fresh.store.IsLexical lines Session.fresh.root [] where
  accounts := by
    refine ⟨Session.size_fresh ▸ Nat.zero_lt_one, nofun, nofun, ?_⟩
    intro id hid hne
    rw [Session.size_fresh, Nat.lt_one_iff] at hid
    exact absurd hid hne
  events := fun _ _ _ heq => by simp at heq
  values := by
    intro id binding hbinding
    have hmem := Store.mem_builtins_of_mem_newDefault hbinding
    rw [Frame.bindings_builtins] at hmem
    rcases List.mem_cons.1 hmem with rfl | hmem
    · exact .of_isPlain rfl
    · obtain ⟨f, -, rfl⟩ := List.mem_map.1 hmem
      exact .native f
  names := nofun

/-- A value that was bound or given in a session. -/
inductive Session.Held (answers : List Answer) (last : Session) : Value → Prop
  /-- The value of a line. -/
  | given {answer : Answer} {v : Value} (hanswer : answer ∈ answers)
    (hv : answer.result = .ok v) : Held answers last v
  /-- A value that is bound at the end. -/
  | bound {id : FrameId} {name : String} {v : Value}
    (hbinding : (name, v) ∈ (last.store.frame id).bindings) : Held answers last v
  /-- The value of a definition. -/
  | parameter {name : String} {v : Value} {scope : Scope}
    (hevent : .parameterDefined name v scope ∈ traceAll answers) : Held answers last v
  /-- A function as its definition made it. -/
  | function {name : String} {stamp : Nat} {parameters : List String} {body : Value}
    {scope : Scope} (hevent : .functionDefined name parameters body scope ∈ traceAll answers) :
    Held answers last (.closure stamp parameters body scope)
  /-- An argument of a function that was applied. -/
  | argument {parameters : List String} {body v : Value} {arguments : List Value} {scope : Scope}
    (hevent : .entered parameters body arguments scope ∈ traceAll answers)
    (hv : v ∈ arguments) : Held answers last v

/-- What a session holds at any time is lexical at its end. -/
lemma isLexical_of_held {lines : Value → Prop} {root : Scope} {answers : List Answer}
    {last : Session} (hstore : last.store.IsLexical lines root (Session.traceAll answers))
    (hgiven : ∀ answer ∈ answers, ∀ v, answer.result = .ok v →
      v.IsLexical lines root (Session.traceAll answers)) {v : Value}
    (h : Session.Held answers last v) : v.IsLexical lines root (Session.traceAll answers) := by
  have hevent : ∀ e ∈ Session.traceAll answers, ∃ before,
      before ⊆ Session.traceAll answers ∧ Event.IsLexical lines root before e := by
    intro e he
    obtain ⟨before, after, heq⟩ := List.append_of_mem he
    exact ⟨before, heq ▸ List.subset_append_left _ _, hstore.events before e after heq⟩
  cases h with
  | given hanswer hv => exact hgiven _ hanswer _ hv
  | bound hbinding => exact hstore.values _ _ hbinding
  | parameter hdefined =>
    obtain ⟨before, hsub, hv, -⟩ := hevent _ hdefined
    exact hv.mono hsub
  | function hdefined =>
    obtain ⟨before, hsub, hhosts⟩ := hevent _ hdefined
    exact .closure (d := ⟨_, _, _⟩) ⟨hdefined, hhosts.mono hsub⟩
  | argument hentered hv =>
    obtain ⟨before, hsub, -, hargs⟩ := hevent _ hentered
    exact (hargs _ hv).mono hsub

/-- **Scope chains mirror the nesting of definitions.**  Whatever sources a fresh session is
given, also those that cannot be read and those that fail, and to whatever depth it
evaluates:

* whenever code is evaluated, it stands in a line within some definitions, and by then each
  frame above the root was made by applying a function of the definition that has its place;
  the scope is the root just for code outside all definitions;
* whenever a function is applied, the scope of its body is a new frame within the scope that
  its definition was evaluated in;
* every function that is ever bound or given has the parameters and the body of a definition
  in a line, and its scope mirrors the definitions around that one;
* every frame but that of the root was made by just one application, and its names are
  parameters of the function that was applied or are defined in its body. -/
theorem scopes_mirror_nesting (depth : Nat) (sources : List Reader.Source) :
    let answered := Session.fresh.answerAll depth sources
    let trace := Session.traceAll answered.1
    let lines := Reader.IsLine sources
    let root := Session.fresh.root
    (∀ before code scope after, trace = before ++ .visited code scope :: after →
      ∃ line nest, lines line ∧ Within line nest code ∧ Mirrors before root scope nest ∧
        scope.frames.length = nest.length + 1 ∧ (scope = root ↔ nest = [])) ∧
    (∀ before parameters body arguments scope after,
      trace = before ++ .entered parameters body arguments scope :: after →
      ∃ frame captured name, scope = .inner frame captured ∧
        Definition.MadeIn lines root before ⟨name, parameters, body⟩ captured) ∧
    (∀ v, Session.Held answered.1 answered.2 v →
      ∀ stamp parameters body captured,
        (Value.closure stamp parameters body captured).Occurs v →
        ∃ line nest name, lines line ∧ Within line nest (definitionCode name parameters body) ∧
          Mirrors trace root captured nest ∧ captured.frames.length = nest.length + 1) ∧
    ∀ id < answered.2.store.frames.size, id ≠ root.frame →
      ∃ parameters body arguments scope,
        .entered parameters body arguments scope ∈ trace ∧ scope.frame = id ∧
        (∀ e ∈ trace, e.made? = some id → e = .entered parameters body arguments scope) ∧
        ∀ binding ∈ (answered.2.store.frame id).bindings,
          binding.1 ∈ parameters ∨ binding.1 ∈ body.defined := by
  intro answered trace lines root
  have hlines : ∀ line, lines line → Reader.IsReadable line := by
    rintro line ⟨source, -, rest, hread⟩
    exact Reader.isReadable_of_parse hread
  -- Every line is evaluated in the root and stands outside all definitions.
  have hroot : ∀ later line, lines line → Hosts lines root later root line :=
    fun _ line hline => ⟨line, [], hline, .line, .root⟩
  obtain ⟨hstore, hgiven⟩ := Session.keeps_answerAll (.lexical lines root hlines) depth sources
    hroot (isLexical_fresh lines)
  refine ⟨?_, ?_, ?_, ?_⟩
  · intro before code scope after heq
    obtain ⟨line, nest, hline, hwithin, hmirrors⟩ := hstore.events before _ after heq
    exact ⟨line, nest, hline, hwithin, hmirrors, hmirrors.length_frames, hmirrors.eq_root_iff⟩
  · intro before parameters body arguments scope after heq
    exact (hstore.events before _ after heq).1
  · intro v hv stamp parameters body captured hoccurs
    obtain ⟨name, -, line, nest, hline, hwithin, hmirrors⟩ :=
      isLexical_of_held hstore hgiven hv stamp parameters body captured hoccurs
    exact ⟨line, nest, name, hline, hwithin, hmirrors, hmirrors.length_frames⟩
  · intro id hid hne
    obtain ⟨e, he, hmade⟩ := hstore.accounts.exists_made id hid hne
    cases e with
    | entered parameters body arguments scope =>
      refine ⟨parameters, body, arguments, scope, he, Option.some.inj hmade, ?_, ?_⟩
      · intro e' he' hmade'
        exact hstore.accounts.unique e' he' _ he id hmade' hmade
      · intro binding hbinding
        rw [← Option.some.inj hmade] at hbinding
        exact List.mem_append.1 (hstore.names _ _ _ _ he binding hbinding)
    | _ => cases hmade

end MiniLisp
