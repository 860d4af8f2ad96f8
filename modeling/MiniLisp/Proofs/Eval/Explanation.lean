/-
# What a trace explains

A name gets bound in a frame in two ways only: by a definition, or as a parameter of the call
that the frame was made for.  So what a name means in a frame after an evaluation is what the last
definition of it there gave it; if there was none, then it is what the name meant before, and in a
frame made since what the call gave it.  This holds also if the evaluation failed
(`Store.IsLinked.explains_evaluate`).

Each definition leaves a record, so the records tell in order which names were defined
(`filterMap_defined?_recordsOf`).
-/
import Mathlib.Data.List.Induction
import MiniLisp.Proofs.Eval.Course
import MiniLisp.Proofs.Eval.Replay

namespace MiniLisp

/-! ### Definitions -/

namespace Event

/-- The frame in which an event defines a name, and the name, if it is a definition. -/
def definition? : Event → Option (FrameId × String)
  | .visited .. | .entered .. => none
  | .parameterDefined name _ scope => some (scope.frame, name)
  | .functionDefined name _ _ scope => some (scope.frame, name)

/-- The value that a definition gives a name. -/
def Gives : Event → Value → Prop
  | .visited .., _ | .entered .., _ => False
  | .parameterDefined _ value _, v => v = value
  | .functionDefined _ parameters body scope, v => ∃ stamp, v = .closure stamp parameters body scope

/-- The frame of a definition was made, and the scope of a call is made next. -/
def IsPlaced (σ : Store) : Event → Prop
  | .visited .. => True
  | .entered _ _ _ scope => ∃ captured, scope = .inner σ.frames.size captured
  | .parameterDefined _ _ scope | .functionDefined _ _ _ scope => scope.frame < σ.frames.size

lemma IsLinked.isPlaced {made : List Scope} {σ : Store} {e : Event} (h : e.IsLinked made σ)
    (hσ : σ.Holds made) : e.IsPlaced σ := by
  cases e with
  | visited => trivial
  | entered =>
    obtain ⟨-, -, captured, -, rfl, -⟩ := h
    exact ⟨captured, by rw [hσ.size_eq]⟩
  | parameterDefined => exact hσ.frame_lt h.1
  | functionDefined => exact hσ.frame_lt h.1

end Event

/-- The definitions among some events, in order. -/
def definitionsOf (events : List Event) : List (FrameId × String) :=
  events.filterMap Event.definition?

lemma mem_definitionsOf_concat {events : List Event} {e : Event} {definition : FrameId × String} :
    definition ∈ definitionsOf (events ++ [e]) ↔
      definition ∈ definitionsOf events ∨ e.definition? = some definition := by
  simp [definitionsOf, List.filterMap_append]

/-- The name that was defined, if a record tells of a definition. -/
def Record.defined? : Record → Option String
  | .parameterDefined name => some name
  | .functionDefined name _ => some name
  | _ => none

/-- The records of events tell of all definitions, and of no others. -/
lemma filterMap_defined?_recordsOf (events : List Event) :
    (recordsOf events).filterMap Record.defined? = (definitionsOf events).map Prod.snd := by
  rw [recordsOf, definitionsOf, List.filterMap_filterMap, List.map_filterMap]
  congr 1
  funext e
  cases e with
  | entered parameters body arguments scope =>
    rw [Event.record?]
    split <;> rfl
  | _ => rfl

/-! ### Where names are defined -/

lemma forall_definitions_concat {home : Scope} {past : List Event} {e : Event}
    (h : ∀ definition ∈ definitionsOf past,
      definition.1 ∈ (scopesAfter [home] past).map Scope.frame)
    (he : ∀ definition, e.definition? = some definition →
      definition.1 ∈ (scopesAfter [home] past).map Scope.frame) :
    ∀ definition ∈ definitionsOf (past ++ [e]),
      definition.1 ∈ (scopesAfter [home] (past ++ [e])).map Scope.frame := by
  intro definition hmem
  have hframe : definition.1 ∈ (scopesAfter [home] past).map Scope.frame :=
    (mem_definitionsOf_concat.1 hmem).elim (h definition) (he definition)
  exact List.map_subset _ (scopesAfter_subset [home] past [e]) hframe

/-- That names are defined in one scope and in those of calls. -/
def Invariant.defining (home : Scope) : Invariant where
  store past _ := ∀ definition ∈ definitionsOf past,
    definition.1 ∈ (scopesAfter [home] past).map Scope.frame
  code past scope _ := scope ∈ scopesAfter [home] past
  value _ _ := True
  code_append more h := scopesAfter_subset _ _ more h
  value_append _ h := h
  code_parts h _ := h
  value_plain _ _ := trivial
  value_self _ _ := trivial
  value_quoted _ := trivial
  value_lookup _ _ _ := trivial
  store_visited h _ := forall_definitions_concat h fun _ hdefinition => nomatch hdefinition
  store_parameter h hscope _ := forall_definitions_concat h fun _ hdefinition =>
    Option.some.inj hdefinition ▸ List.mem_map_of_mem hscope
  store_function h hscope := forall_definitions_concat h fun _ hdefinition =>
    Option.some.inj hdefinition ▸ List.mem_map_of_mem hscope
  store_entered h _ _ := forall_definitions_concat h fun _ hdefinition => nomatch hdefinition
  code_entered _ _ _ := by
    rw [scopesAfter_concat]
    exact List.mem_append_right _ (List.mem_singleton.2 rfl)

/-- Evaluation defines names in the scope of the code and in the scopes of calls. -/
lemma frame_mem_of_mem_definitionsOf (depth : Nat) (scope : Scope) (code : Value) (σ : Store) :
    let trace := (evaluate depth scope code σ).trace
    ∀ definition ∈ definitionsOf trace,
      definition.1 ∈ (scopesAfter [scope] trace).map Scope.frame :=
  ((Invariant.defining scope).respects_evaluate depth [] scope code (List.mem_singleton.2 rfl) σ
    (fun _ hmem => nomatch hmem)).1

/-! ### The store after an event -/

namespace Store

variable {σ : Store} {id : FrameId} {name : String} {v : Value}

variable {e : Event} (he : e.IsPlaced σ)

include he

lemma size_le_after : σ.frames.size ≤ (σ.after e).frames.size := by
  cases e with
  | visited => exact Nat.le_refl _
  | entered parameters body arguments scope =>
    obtain ⟨captured, rfl⟩ := he
    exact (σ.size_enter captured parameters arguments).symm ▸ Nat.le_succ _
  | parameterDefined name v scope => exact Nat.le_of_eq (σ.size_set scope name v).symm
  | functionDefined name parameters body scope => exact Nat.le_of_eq (size_set _ scope name _).symm

/-- In a frame that was made, an event changes only what it defines. -/
lemma get?_after_of_ne (hid : id < σ.frames.size) (hne : e.definition? ≠ some (id, name)) :
    ((σ.after e).frame id).get? name = (σ.frame id).get? name := by
  cases e with
  | visited => rfl
  | entered parameters body arguments scope =>
    obtain ⟨captured, rfl⟩ := he
    show ((σ.enter parameters arguments captured).2.frame id).get? name = _
    rw [frame_enter_of_ne σ captured (Nat.ne_of_lt hid)]
  | parameterDefined other value scope =>
    exact (get?_frame_set _ _ he).trans (if_neg fun heq => hne (congrArg some heq))
  | functionDefined other parameters body scope =>
    exact (get?_frame_set _ _ he).trans (if_neg fun heq => hne (congrArg some heq))

lemma exists_gives_of_definition? (h : e.definition? = some (id, name)) :
    ∃ v, e.Gives v ∧ ((σ.after e).frame id).get? name = some v := by
  cases e with
  | visited => cases h
  | entered => cases h
  | parameterDefined other value scope =>
    exact ⟨_, rfl, (get?_frame_set _ _ he).trans (if_pos (Option.some.inj h))⟩
  | functionDefined other parameters body scope =>
    exact ⟨_, ⟨_, rfl⟩, (get?_frame_set _ _ he).trans (if_pos (Option.some.inj h))⟩

/-- In a frame that is new, only parameters are bound. -/
lemma exists_entered_of_get?_after (hid : σ.frames.size ≤ id)
    (h : ((σ.after e).frame id).get? name = some v) :
    ∃ parameters body arguments captured,
      e = .entered parameters body arguments (.inner id captured) ∧
        (parameters.zip arguments).reverse.lookup name = some v := by
  have hlt := lt_size_of_get? _ h
  cases e with
  | visited => exact absurd hlt (Nat.not_lt.2 hid)
  | entered parameters body arguments scope =>
    obtain ⟨captured, rfl⟩ := he
    have hle : id ≤ σ.frames.size :=
      Nat.le_of_lt_succ (Nat.lt_of_lt_of_eq hlt (size_enter σ captured parameters arguments))
    obtain rfl : id = σ.frames.size := Nat.le_antisymm hle hid
    exact ⟨parameters, body, arguments, captured, rfl,
      (get?_frame_enter σ captured parameters arguments name).symm.trans h⟩
  | parameterDefined other value scope =>
    exact absurd (Nat.lt_of_lt_of_eq hlt (size_set σ scope other value)) (Nat.not_lt.2 hid)
  | functionDefined other parameters body scope =>
    exact absurd (Nat.lt_of_lt_of_eq hlt (size_set _ scope other _)) (Nat.not_lt.2 hid)

end Store

/-! ### The store after a trace -/

/-- Events explain all that names mean in the frames of a store: the store has come from
another one by them. -/
structure Store.Explains (σ₀ : Store) (past : List Event) (σ : Store) : Prop where
  size_le : σ₀.frames.size ≤ σ.frames.size
  /-- A name that was not defined in a frame means there what it meant. -/
  kept : ∀ id < σ₀.frames.size, ∀ name, (id, name) ∉ definitionsOf past →
    (σ.frame id).get? name = (σ₀.frame id).get? name
  /-- In the frame of a call it means what the call gave it. -/
  called : ∀ id, σ₀.frames.size ≤ id → ∀ name v, (id, name) ∉ definitionsOf past →
    (σ.frame id).get? name = some v → ∃ parameters body arguments captured,
      .entered parameters body arguments (.inner id captured) ∈ past ∧
        (parameters.zip arguments).reverse.lookup name = some v
  /-- A name that was defined means what the last definition gave it. -/
  defined : ∀ before e after, past = before ++ e :: after → ∀ id name,
    e.definition? = some (id, name) → (id, name) ∉ definitionsOf after →
      ∃ v, e.Gives v ∧ (σ.frame id).get? name = some v

namespace Store.Explains

lemma nil (σ : Store) : σ.Explains [] σ where
  size_le := Nat.le_refl _
  kept := fun _ _ _ _ => rfl
  called := fun _ hid _ _ _ hv => absurd (lt_size_of_get? _ hv) (Nat.not_lt.2 hid)
  defined := fun _ _ _ heq => by simp at heq

/-- One more event. -/
lemma concat {σ₀ σ : Store} {past : List Event} (h : σ₀.Explains past σ) {e : Event}
    (he : e.IsPlaced σ) : σ₀.Explains (past ++ [e]) (σ.after e) where
  size_le := h.size_le.trans (size_le_after he)
  kept := by
    intro id hid name hname
    rw [mem_definitionsOf_concat, not_or] at hname
    rw [get?_after_of_ne he (Nat.lt_of_lt_of_le hid h.size_le) hname.2, h.kept id hid name hname.1]
  called := by
    intro id hid name v hname hv
    rw [mem_definitionsOf_concat, not_or] at hname
    rcases Nat.lt_or_ge id σ.frames.size with hlt | hge
    · rw [get?_after_of_ne he hlt hname.2] at hv
      obtain ⟨parameters, body, arguments, captured, hmem, hlookup⟩ :=
        h.called id hid name v hname.1 hv
      exact ⟨parameters, body, arguments, captured, List.mem_append_left _ hmem, hlookup⟩
    · obtain ⟨parameters, body, arguments, captured, rfl, hlookup⟩ :=
        exists_entered_of_get?_after he hge hv
      exact ⟨parameters, body, arguments, captured, List.mem_append_right _ List.mem_cons_self,
        hlookup⟩
  defined := by
    intro before other after heq id name hdefinition hafter
    -- The definition is the new event, or it was there and the new event does not undo it.
    obtain ⟨rfl, rfl, rfl⟩ | ⟨between, rfl, rfl⟩ := last_or_before_of_concat_eq heq
    · exact exists_gives_of_definition? he hdefinition
    · rw [mem_definitionsOf_concat, not_or] at hafter
      obtain ⟨v, hgives, hv⟩ := h.defined before other between rfl id name hdefinition hafter.1
      exact ⟨v, hgives, (get?_after_of_ne he (lt_size_of_get? _ hv) hafter.2).trans hv⟩

end Store.Explains

/-- The scopes that were made after a linked event are those of the store after it. -/
lemma Store.Holds.after {σ : Store} {made : List Scope} (h : σ.Holds made) {e : Event}
    (he : e.IsLinked made σ) : (σ.after e).Holds (made ++ e.entered?.toList) := by
  cases e with
  | visited => exact (List.append_nil made).symm ▸ h
  | entered parameters body arguments scope =>
    obtain ⟨-, -, captured, hcaptured, rfl, -⟩ := he
    rw [← h.size_eq]
    have hgrow : σ.grow.Holds (made ++ [σ.nextScope (some captured)]) :=
      h.grow fun scope hscope => Option.some.inj hscope ▸ hcaptured
    exact hgrow.setAll _ _
  | parameterDefined name v scope => exact (List.append_nil made).symm ▸ h.setAll scope [(name, v)]
  | functionDefined name parameters body scope =>
    have hclosure : (σ.newClosure parameters body scope).2.Holds made := ⟨h.lineage, h.size_eq⟩
    exact (List.append_nil made).symm ▸ hclosure.setAll scope [(name, _)]

/-- Events that were linked when they happened explain the store that they lead to. -/
lemma Store.StaysLinked.explains {σ₀ σ : Store} {made : List Scope} {past : List Event}
    (h : σ₀.StaysLinked made past σ) (h₀ : σ₀.Holds made) : σ₀.Explains past σ := by
  have hbefore : ∀ before after, past = before ++ after →
      (σ₀.replay before).Holds (scopesAfter made before) ∧
        σ₀.Explains before (σ₀.replay before) := by
    intro before
    induction before using List.reverseRecOn with
    | nil =>
      intro _ _
      refine ⟨?_, .nil σ₀⟩
      rwa [scopesAfter, List.filterMap_nil, List.append_nil]
    | append_singleton before e ih =>
      intro after heq
      rw [List.append_assoc, List.singleton_append] at heq
      obtain ⟨hholds, hexplains⟩ := ih (e :: after) heq
      have he := h.events before e after heq
      rw [replay_concat, scopesAfter_concat]
      exact ⟨hholds.after he, hexplains.concat (he.isPlaced hholds)⟩
  rw [← h.replay_eq]
  exact (hbefore past [] (List.append_nil past).symm).2

/-- **The trace of an evaluation explains the store that it leaves.**  The scope that the code
is evaluated in was made, and all that is bound and the code capture scopes that were made; the
evaluation may give a value or fail. -/
theorem Store.IsLinked.explains_evaluate {σ : Store} {made : List Scope} (h : σ.IsLinked made)
    {scope : Scope} {code : Value} (hscope : scope ∈ made) (hcode : code.CapturesFrom made)
    (depth : Nat) :
    let run := MiniLisp.evaluate depth scope code σ
    σ.Explains run.trace run.store :=
  (h.evaluate hscope hcode depth).1.explains h.holds

end MiniLisp
