/-
# Closed stores

Scopes refer to frames by their places and closures carry stamps, and both are given out by
the store.  A store is closed if every closure that is bound in it has a stamp and a scope
that were given out.  Nothing is ever taken back, so evaluation in a closed store leaves a
closed store, and the value that it gives was known to the store by then.

How many frames and stamps there are at some point can be read off what has happened, and
this is how the invariant speaks of values, which know of no store.
-/
import MiniLisp.Proofs.Eval.Invariant
import MiniLisp.Proofs.Scope.Store
import MiniLisp.Proofs.Value.Relabel

namespace MiniLisp

/-! ### Below some numbers -/

/-- All frames of a scope are among the first ones. -/
def Scope.IsBelow (frames : Nat) (scope : Scope) : Prop := ∀ id ∈ scope.frames, id < frames

/-- All closures in a value have one of the first stamps and scopes of the first frames. -/
def Value.IsBelow (frames stamps : Nat) (v : Value) : Prop :=
  ∀ c ∈ v.closures, c.1 < stamps ∧ c.2.IsBelow frames

lemma Scope.IsBelow.mono {scope : Scope} {frames frames' : Nat} (h : scope.IsBelow frames)
    (hle : frames ≤ frames') : scope.IsBelow frames' :=
  fun id hid => Nat.lt_of_lt_of_le (h id hid) hle

namespace Value

variable {frames stamps : Nat} {v : Value}

lemma IsBelow.mono {frames' stamps' : Nat} (h : v.IsBelow frames stamps)
    (hframes : frames ≤ frames') (hstamps : stamps ≤ stamps') : v.IsBelow frames' stamps' :=
  fun c hc => ⟨Nat.lt_of_lt_of_le (h c hc).1 hstamps, (h c hc).2.mono hframes⟩

lemma isBelow_list {items : List Value} :
    IsBelow frames stamps (.list items) ↔ ∀ v ∈ items, v.IsBelow frames stamps :=
  forall_closures_list

lemma isBelow_closure {stamp : Nat} {parameters : List String} {body : Value} {scope : Scope} :
    IsBelow frames stamps (.closure stamp parameters body scope) ↔
      (stamp < stamps ∧ scope.IsBelow frames) ∧ body.IsBelow frames stamps :=
  forall_closures_closure

lemma closures_of_isPlain (h : v.isPlain) : v.closures = [] := by
  cases v with
  | number | symbol | nil | t => rfl
  | _ => cases h

lemma isBelow_of_closures_eq_nil (h : v.closures = []) : v.IsBelow frames stamps := by
  intro c hc
  rw [h] at hc
  cases hc

/-- The parts of code are elements of a list. -/
lemma exists_list_of_mem_parts {code part : Value} (h : part ∈ code.parts) :
    ∃ items, code = .list items ∧ part ∈ items := by
  rcases mem_parts h with ⟨head, operands, -, rfl, hmem⟩ | ⟨operands, rfl, hmem⟩ | ⟨target, rfl⟩
  · exact ⟨_, rfl, hmem⟩
  · exact ⟨_, rfl, List.mem_cons_of_mem _ hmem⟩
  · exact ⟨_, rfl, by simp⟩

end Value

/-! ### Closed stores -/

/-- What is bound from the start has no name and no closure in it. -/
lemma Frame.isInert_of_mem_builtins {binding : String × Value}
    (h : binding ∈ builtins.bindings) : binding.2.isInert :=
  of_mem_builtins (P := fun v => v.isInert) rfl (fun _ => rfl) binding h

namespace Store

/-- The frames of a scope were made. -/
def Has (σ : Store) (scope : Scope) : Prop := scope.IsBelow σ.frames.size

/-- The closures in a value were made, and so were the frames of their scopes. -/
def Knows (σ : Store) (v : Value) : Prop := v.IsBelow σ.frames.size σ.stamps

/-- Whatever is bound in the store is known to it. -/
def IsClosed (σ : Store) : Prop :=
  ∀ id, ∀ binding ∈ (σ.frame id).bindings, σ.Knows binding.2

namespace IsClosed

variable {σ : Store} (h : σ.IsClosed)

include h

lemma knows_of_lookup? {scope : Scope} {name : String} {v : Value}
    (hv : σ.lookup? scope name = some v) : σ.Knows v :=
  Binds.of_lookup? h hv

lemma set {v : Value} (hv : σ.Knows v) (scope : Scope) (name : String) :
    (σ.set scope name v).IsClosed := by
  refine (Binds.set h hv scope name).mono fun _ hw => ?_
  rwa [Knows, size_set]

lemma newClosure (parameters : List String) (body : Value) (scope : Scope) :
    (σ.newClosure parameters body scope).2.IsClosed :=
  Binds.mono h fun _ hw => hw.mono (Nat.le_refl _) (Nat.le_succ _)

lemma enter {arguments : List Value} (hv : ∀ v ∈ arguments, σ.Knows v)
    (parameters : List String) (captured : Scope) :
    (σ.enter parameters arguments captured).2.IsClosed := by
  refine (Binds.enter h hv parameters captured).mono fun _ hw => ?_
  rw [Knows, size_enter, stamps_enter]
  exact hw.mono (Nat.le_succ _) (Nat.le_refl _)

end IsClosed

lemma isClosed_newDefault : empty.newDefault.2.IsClosed := fun _ _ hmem =>
  Value.isBelow_of_closures_eq_nil <| Value.closures_of_isInert <|
    Frame.isInert_of_mem_builtins (mem_builtins_of_mem_newDefault hmem)

end Store

/-! ### Evaluation -/

/-- Whether a frame is made. -/
def Event.makesFrame : Event → Bool
  | .entered .. => true
  | _ => false

/-- Whether a closure is made. -/
def Event.makesClosure : Event → Bool
  | .functionDefined .. => true
  | _ => false

/-- How many frames there are after some events. -/
def framesAfter (frames : Nat) (past : List Event) : Nat := frames + past.countP Event.makesFrame

/-- How many stamps were given out after some events. -/
def stampsAfter (stamps : Nat) (past : List Event) : Nat :=
  stamps + past.countP Event.makesClosure

lemma framesAfter_le (frames : Nat) (past more : List Event) :
    framesAfter frames past ≤ framesAfter frames (past ++ more) := by
  rw [framesAfter, framesAfter, List.countP_append]
  omega

lemma stampsAfter_le (stamps : Nat) (past more : List Event) :
    stampsAfter stamps past ≤ stampsAfter stamps (past ++ more) := by
  rw [stampsAfter, stampsAfter, List.countP_append]
  omega

/-- The store is closed and has as many frames and stamps as the events say. -/
structure Store.IsClosedAfter (frames stamps : Nat) (past : List Event) (σ : Store) : Prop where
  size_eq : σ.frames.size = framesAfter frames past
  stamps_eq : σ.stamps = stampsAfter stamps past
  isClosed : σ.IsClosed

/-- That stores stay closed. -/
def Invariant.closed (frames stamps : Nat) : Invariant where
  store past σ := σ.IsClosedAfter frames stamps past
  code past scope c := scope.IsBelow (framesAfter frames past) ∧
    c.IsBelow (framesAfter frames past) (stampsAfter stamps past)
  value past v := v.IsBelow (framesAfter frames past) (stampsAfter stamps past)
  code_append more h := ⟨h.1.mono (framesAfter_le _ _ more),
    h.2.mono (framesAfter_le _ _ more) (stampsAfter_le _ _ more)⟩
  value_append more h := h.mono (framesAfter_le _ _ more) (stampsAfter_le _ _ more)
  code_parts := by
    rintro past scope c part ⟨hscope, hcode⟩ hpart
    obtain ⟨items, rfl, hmem⟩ := Value.exists_list_of_mem_parts hpart
    exact ⟨hscope, Value.isBelow_list.1 hcode part hmem⟩
  value_plain _ h := Value.isBelow_of_closures_eq_nil (Value.closures_of_isPlain h)
  value_self h _ := h.2
  value_quoted h := Value.isBelow_list.1 h.2 _ (by simp)
  value_lookup hσ _ hv := by
    rw [← hσ.size_eq, ← hσ.stamps_eq]
    exact hσ.isClosed.knows_of_lookup? hv
  store_visited hσ _ :=
    ⟨by simpa [framesAfter, Event.makesFrame] using hσ.size_eq,
      by simpa [stampsAfter, Event.makesClosure] using hσ.stamps_eq, hσ.isClosed⟩
  store_parameter hσ _ hv :=
    ⟨by simpa [framesAfter, Event.makesFrame] using hσ.size_eq,
      by simpa [stampsAfter, Event.makesClosure] using hσ.stamps_eq,
      hσ.isClosed.set (by rwa [Store.Knows, hσ.size_eq, hσ.stamps_eq]) _ _⟩
  store_function := by
    rintro past σ scope name parameters body hσ ⟨hscope, hcode⟩
    rw [← hσ.size_eq] at hscope
    rw [← hσ.size_eq, ← hσ.stamps_eq] at hcode
    have hbody : body.IsBelow σ.frames.size σ.stamps :=
      Value.isBelow_list.1 hcode body (by simp)
    refine ⟨?_, ?_, (hσ.isClosed.newClosure parameters body scope).set ?_ _ _⟩
    · simpa [framesAfter, Event.makesFrame] using hσ.size_eq
    · simp [stampsAfter, Event.makesClosure, hσ.stamps_eq, Nat.add_assoc]
    · exact Value.isBelow_closure.2 ⟨⟨Nat.lt_succ_self _, hscope⟩,
        hbody.mono (Nat.le_refl _) (Nat.le_succ _)⟩
  store_entered := by
    intro past σ stamp parameters body captured arguments hσ hf ha
    refine ⟨?_, ?_, hσ.isClosed.enter (fun v hv => ?_) parameters captured⟩
    · simp [framesAfter, Event.makesFrame, hσ.size_eq, Nat.add_assoc]
    · simp [stampsAfter, Event.makesClosure, hσ.stamps_eq]
    · rw [Store.Knows, hσ.size_eq, hσ.stamps_eq]
      exact ha v hv
  code_entered := by
    intro past σ stamp parameters body captured arguments hσ hf ha
    obtain ⟨⟨-, hcaptured⟩, hbody⟩ := Value.isBelow_closure.1 hf
    refine ⟨?_, hbody.mono (framesAfter_le _ _ _) (stampsAfter_le _ _ _)⟩
    rw [Store.enter_fst, hσ.size_eq]
    intro id hid
    have hlt : framesAfter frames past < framesAfter frames (past ++ [.entered parameters body
        arguments (.inner (framesAfter frames past) captured)]) := by
      simp [framesAfter, Event.makesFrame]
    rcases List.mem_cons.1 hid with rfl | hid
    · exact hlt
    · exact Nat.lt_trans (hcaptured id hid) hlt

/-- What an evaluation does to the frames and stamps of a closed store. -/
structure Store.Extends (σ σ' : Store) : Prop where
  size_le : σ.frames.size ≤ σ'.frames.size
  stamps_le : σ.stamps ≤ σ'.stamps
  isClosed : σ'.IsClosed

/-- **Evaluation keeps stores closed.**  If all that is bound in the store is known to it, and
the code and its scope are too, then evaluation makes frames and closures only and leaves a
closed store, whether it gives a value or fails, and the value is known to that store. -/
theorem Store.IsClosed.evaluate {σ : Store} (h : σ.IsClosed) {scope : Scope} {code : Value}
    (hscope : σ.Has scope) (hcode : σ.Knows code) (depth : Nat) :
    let run := MiniLisp.evaluate depth scope code σ
    σ.Extends run.store ∧ ∀ v, run.result = .ok v → run.store.Knows v := by
  intro run
  obtain ⟨hafter, hvalue⟩ :=
    (Invariant.closed σ.frames.size σ.stamps).respects_evaluate depth [] scope code
      ⟨hscope, hcode⟩ σ ⟨rfl, rfl, h⟩
  refine ⟨⟨?_, ?_, hafter.isClosed⟩, fun v hv => ?_⟩
  · rw [hafter.size_eq]
    exact Nat.le_add_right _ _
  · rw [hafter.stamps_eq]
    exact Nat.le_add_right _ _
  · rw [Store.Knows, hafter.size_eq, hafter.stamps_eq]
    exact hvalue v hv

end MiniLisp
