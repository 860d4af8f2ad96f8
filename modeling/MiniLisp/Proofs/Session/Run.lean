/-
# What a session keeps

A session evaluates what is read from its sources in its root, one source after another,
and each finds the store that the ones before it left, also those that failed.  So a
session keeps every invariant that what it reads has in the root.
-/
import MiniLisp.Proofs.Eval.Closed
import MiniLisp.Proofs.Reader.Image
import MiniLisp.Session.Basic

namespace MiniLisp

namespace Answer

lemma result_evaluated (code : Value) (left : Nat) (run : Run Value) :
    (evaluated code left run).result = run.result.mapError .failed := by
  obtain ⟨result, store, trace⟩ := run
  cases result <;> rfl

section

variable {code v : Value} {left : Nat} {run : Run Value} {e : EvalError} {answer : Answer}
  {failure : Failure}

lemma result_evaluated_of_ok (h : run.result = .ok v) :
    (evaluated code left run).result = .ok v := by
  rw [result_evaluated, h]
  rfl

lemma result_evaluated_of_error (h : run.result = .error e) :
    (evaluated code left run).result = .error (.failed e) := by
  rw [result_evaluated, h]
  rfl

lemma display_of_ok (h : answer.result = .ok v) (hv : v.isDisplayable) :
    answer.display = .ok v.display := by
  rw [display, h]
  simp only [Value.display?, hv, if_true]

lemma display_of_error (h : answer.result = .error failure) :
    answer.display = .error failure := by
  rw [display, h]

/-- What was read does not fail as unreadable, also where the value cannot be displayed. -/
lemma exists_of_display_evaluated (h : (evaluated code left run).display = .error failure) :
    ∃ e, failure = .failed e := by
  cases hresult : run.result with
  | error e =>
    rw [display_of_error (result_evaluated_of_error hresult)] at h
    exact ⟨e, (Except.error.inj h).symm⟩
  | ok v =>
    rw [display, result_evaluated_of_ok hresult] at h
    cases hv : v.display? with
    | ok s =>
      simp only [hv] at h
      cases h
    | error e =>
      simp only [hv] at h
      exact ⟨e, (Except.error.inj h).symm⟩

end

end Answer

/-- An expression that one of some sources begins with. -/
def Reader.IsLine (sources : List Source) (line : Value) : Prop :=
  ∃ source ∈ sources, ∃ rest, parse source = .ok (line, rest)

namespace Session

/-- What happened while sources were evaluated one after another, in order. -/
def traceAll (answers : List Answer) : List Event := answers.flatMap Answer.trace

lemma size_fresh : fresh.store.frames.size = 1 := Store.size_newDefault

/-! ### Sources -/

section

variable {session : Session} {depth : Nat} {source : Reader.Source}

lemma answerWithin_of_error {e : ReadError} (h : Reader.parse source = .error e) :
    session.answerWithin depth source = .unreadable e := by
  show Answer.ofSource _ _ _ _ = _
  rw [Answer.ofSource, h]

lemma answerWithin_of_ok {line : Value} {rest : Cursor}
    (h : Reader.parse source = .ok (line, rest)) :
    session.answerWithin depth source =
      .evaluated line rest.rest.length (evaluate depth session.root line session.store) := by
  show Answer.ofSource _ _ _ _ = _
  rw [Answer.ofSource, h]

lemma root_answerAll (sources : List Reader.Source) :
    (session.answerAll depth sources).2.root = session.root := by
  induction sources generalizing session with
  | nil => rfl
  | cons source sources ih => exact ih

/-- Sources in two parts are answered one part after the other. -/
lemma answerAll_append (first second : List Reader.Source) :
    session.answerAll depth (first ++ second) =
      let (answers, middle) := session.answerAll depth first
      let (answers', last) := middle.answerAll depth second
      (answers ++ answers', last) := by
  induction first generalizing session with
  | nil => rfl
  | cons source first ih =>
    rw [List.cons_append, answerAll, ih]
    rfl

lemma length_answerAll (sources : List Reader.Source) :
    (session.answerAll depth sources).1.length = sources.length := by
  induction sources generalizing session with
  | nil => rfl
  | cons source sources ih => exact congrArg (· + 1) ih

end

variable {session : Session} {past : List Event}

/-- One source keeps an invariant. -/
lemma keeps_answerWithin (I : Invariant) (depth : Nat) (source : Reader.Source)
    (hline : ∀ line, Reader.IsLine [source] line → I.code past session.root line)
    (hstore : I.store past session.store) :
    let answer := session.answerWithin depth source
    I.store (past ++ answer.trace) (session.after answer).store ∧
      ∀ v, answer.result = .ok v → I.value (past ++ answer.trace) v := by
  intro answer
  cases hread : Reader.parse source with
  | error e =>
    have hanswer : answer = .unreadable e := answerWithin_of_error hread
    rw [hanswer]
    refine ⟨?_, fun v hv => nomatch hv⟩
    show I.store (past ++ []) session.store
    rwa [List.append_nil]
  | ok read =>
    obtain ⟨line, rest⟩ := read
    have hanswer : answer = .evaluated line rest.rest.length
        (evaluate depth session.root line session.store) := answerWithin_of_ok hread
    rw [hanswer]
    obtain ⟨hafter, hvalue⟩ := I.respects_evaluate depth past session.root line
      (hline line ⟨source, List.mem_singleton.2 rfl, rest, hread⟩) session.store hstore
    refine ⟨hafter, fun v hv => hvalue v ?_⟩
    simp only [Answer.result] at hv
    split at hv
    · rename_i heq
      rw [heq, Except.ok.inj hv]
    · cases hv

/-- Any number of sources keep an invariant. -/
theorem keeps_answerAll (I : Invariant) (depth : Nat) (sources : List Reader.Source)
    (hline : ∀ later line, Reader.IsLine sources line → I.code later session.root line)
    (hstore : I.store past session.store) :
    let answered := session.answerAll depth sources
    I.store (past ++ traceAll answered.1) answered.2.store ∧
      ∀ answer ∈ answered.1, ∀ v, answer.result = .ok v →
        I.value (past ++ traceAll answered.1) v := by
  induction sources generalizing session past with
  | nil =>
    refine ⟨?_, fun _ hanswer => nomatch hanswer⟩
    simpa [answerAll, traceAll] using hstore
  | cons source sources ih =>
    have hfirst : ∀ line, Reader.IsLine [source] line → I.code past session.root line := by
      rintro line ⟨_, hs, hread⟩
      exact hline past line ⟨source, List.mem_cons_self, List.mem_singleton.1 hs ▸ hread⟩
    have hrest : ∀ later line, Reader.IsLine sources line →
        I.code later (session.after (session.answerWithin depth source)).root line := by
      rintro later line ⟨s, hs, hread⟩
      exact hline later line ⟨s, List.mem_cons_of_mem _ hs, hread⟩
    obtain ⟨hafter, hvalue⟩ := keeps_answerWithin I depth source hfirst hstore
    obtain ⟨hlast, hvalues⟩ := ih hrest hafter
    simp only [answerAll, traceAll, List.flatMap_cons, ← List.append_assoc]
    refine ⟨hlast, ?_⟩
    intro answer hanswer v hv
    rcases List.mem_cons.1 hanswer with rfl | hanswer
    · exact I.value_append _ (hvalue v hv)
    · exact hvalues answer hanswer v hv

/-! ### Closed stores -/

/-- There are no closures in what is read. -/
lemma closures_of_isReadable {v : Value} (h : Reader.IsReadable v) : v.closures = [] := by
  induction h with
  | list _ ih => exact Value.closures_list_eq_nil_iff.2 ih
  | _ => rfl

lemma isBelow_of_isReadable {v : Value} (h : Reader.IsReadable v) (frames stamps : Nat) :
    v.IsBelow frames stamps :=
  Value.isBelow_of_closures_eq_nil (closures_of_isReadable h)

/-- The store of a session is closed, and the root is in it. -/
theorem isClosed_answerAll (depth : Nat) (sources : List Reader.Source) :
    let last := (fresh.answerAll depth sources).2
    last.store.IsClosed ∧ last.store.Has last.root := by
  intro last
  have hstart : fresh.store.IsClosedAfter 1 0 [] := ⟨size_fresh, rfl, Store.isClosed_newDefault⟩
  have hroot : ∀ later, fresh.root.IsBelow (framesAfter 1 later) := fun later id hid => by
    rw [List.mem_singleton.1 hid]
    exact Nat.add_pos_left Nat.one_pos _
  have hlast := (keeps_answerAll (.closed 1 0) depth sources
    (fun later line ⟨_, _, _, hread⟩ =>
      ⟨hroot later, isBelow_of_isReadable (Reader.isReadable_of_parse hread) _ _⟩) hstart).1
  refine ⟨hlast.isClosed, ?_⟩
  rw [Store.Has, hlast.size_eq, root_answerAll]
  exact hroot _

end Session

end MiniLisp
