/-
# The log of the shell

For each line the log says what was read and what is evaluated, then what the evaluation did, in
order, and at last why it failed, if it did.  What the evaluation did is what the rules of its
course say (`evaluates_iff`), and it explains all that the line changed, also if the line failed
midway.  The main statement is `Shell.log_is_faithful`.
-/
import MiniLisp.Proofs.Eval.Explanation
import MiniLisp.Proofs.Session.Steps
import MiniLisp.Proofs.Shell.Levels

namespace MiniLisp

/-- Whether a record tells of a definition or of a call. -/
def Record.isOfEvaluation : Record → Bool
  | .parameterDefined _ | .functionDefined .. | .applying .. => true
  | _ => false

lemma isOfEvaluation_of_mem_recordsOf {events : List Event} {record : Record}
    (h : record ∈ recordsOf events) : record.isOfEvaluation := by
  obtain ⟨e, -, hrecord⟩ := List.mem_filterMap.1 h
  cases e with
  | visited => cases hrecord
  | entered =>
    rw [Event.record?] at hrecord
    split at hrecord <;> cases hrecord
    rfl
  | parameterDefined | functionDefined =>
    cases hrecord
    rfl

/-- At the start the root is the only scope. -/
lemma Session.isLinked_fresh : fresh.store.IsLinked [fresh.root] :=
  Workspace.isLinked_empty.start

namespace Shell

section

variable {depth : Nat} {session : Session}

/-! ### The store stays linked -/

lemma exists_isLinked_handleLineWithin {made : List Scope} (h : session.store.IsLinked made)
    (hroot : session.root ∈ made) (line : String) :
    ∃ made', (handleLineWithin depth session line).session.store.IsLinked made' ∧
      session.root ∈ made' := by
  by_cases hblank : Text.isBlankLine line
  · rw [handleLineWithin_of_blank hblank]
    exact ⟨made, h, hroot⟩
  · rw [handleLineWithin_of_not_blank hblank]
    exact ⟨_, h.answer hroot depth (.text line), List.mem_append_left _ hroot⟩

lemma exists_isLinked_sessionAfter {made : List Scope} (h : session.store.IsLinked made)
    (hroot : session.root ∈ made) (lines : List String) :
    ∃ made', (sessionAfter depth session lines).store.IsLinked made' ∧
      (sessionAfter depth session lines).root ∈ made' := by
  induction lines generalizing session made with
  | nil => exact ⟨made, h, hroot⟩
  | cons line lines ih =>
    obtain ⟨made', h', hroot'⟩ := exists_isLinked_handleLineWithin h hroot line
    exact ih h' (root_handleLineWithin.symm ▸ hroot')

/-! ### The records of a line -/

variable {line : String}

lemma records_of_error (hblank : ¬ Text.isBlankLine line) {e : ReadError}
    (h : Reader.parse (.text line) = .error e) :
    (handleLineWithin depth session line).records = [.unreadable e] := by
  rw [handleLineWithin_of_not_blank hblank, Session.answerWithin_of_error h]
  rfl

variable {code : Value} {rest : Cursor} (hblank : ¬ Text.isBlankLine line)
  (h : Reader.parse (.text line) = .ok (code, rest))

include hblank h

/-- An error leaves a record behind those of the evaluation only if it is of some kind. -/
lemma records_of_failed {e : EvalError}
    (he : (evaluate depth session.root code session.store).result = .error e) :
    (handleLineWithin depth session line).records = .read code rest.rest.length ::
      .evaluating code :: (recordsOf (evaluate depth session.root code session.store).trace ++
        if e.kind?.isSome then [.failed e] else []) := by
  rw [handleLineWithin_of_not_blank hblank, Session.answerWithin_of_ok h, failureRecord,
    Answer.display_of_error (Answer.result_evaluated_of_error he)]
  rfl

lemma records_of_value (hproper : session.store.Binds Value.IsProper) {v : Value}
    (hv : (evaluate depth session.root code session.store).result = .ok v) :
    (handleLineWithin depth session line).records = .read code rest.rest.length ::
      .evaluating code :: recordsOf (evaluate depth session.root code session.store).trace := by
  have hdisplay := ((handleLineWithin_of_ok hblank h hproper).2.2.2 v hv).1
  rw [handleLineWithin_of_not_blank hblank, Session.answerWithin_of_ok h, failureRecord,
    Answer.display_of_ok (Answer.result_evaluated_of_ok hv) hdisplay]
  exact List.append_nil _

end

/-- **The log is faithful.**  Whatever lines were handled before, to whatever depth evaluations may
nest, a blank line leaves no record and one that cannot be read a single record that says so.  Any
other line leaves a record of what was read, one of what is evaluated and then those of the
evaluation.  Behind them there is a record of the error, with the text that the shell says, if and
only if the evaluation failed; one that nests too deeply does not fail in this sense, its error is
of no kind, and the shell says nothing.

* The records of an evaluation that does not nest too deeply are those that the rules of its
  course give, where each definition leaves a record behind those of its operand, and each call
  with too many or too few arguments one before those of the body; no other records follow the
  rules.
* The records of the evaluation tell of all definitions in order.  These were made in the root or
  in scopes of calls, and together with the calls they explain all that names mean after the
  line. -/
theorem log_is_faithful (depth : Nat) (before : List String) (line : String) :
    (Text.isBlankLine line → (handledAfter depth Session.fresh before line).records = []) ∧
    (¬ Text.isBlankLine line →
      let session := sessionAfter depth Session.fresh before
      let handled := handledAfter depth Session.fresh before line
      (∀ e, Reader.parse (.text line) = .error e → handled.records = [.unreadable e]) ∧
      ∀ code rest, Reader.parse (.text line) = .ok (code, rest) →
        let run := evaluate depth session.root code session.store
        let log := recordsOf run.trace
        ((∀ v, run.result = .ok v →
            handled.records = .read code rest.rest.length :: .evaluating code :: log) ∧
          (∀ e, run.result = .error e → e ≠ .tooDeep → e.kind?.isSome ∧
            handled.records =
              .read code rest.rest.length :: .evaluating code :: (log ++ [.failed e]) ∧
            ∃ text, handled.reply? = some text ∧
              (Record.failed e).message = "evaluation error: " ++ text) ∧
          (run.result = .error .tooDeep →
            handled.records = .read code rest.rest.length :: .evaluating code :: log ∧
            handled.reply? = none)) ∧
        ((∀ record ∈ log, record.isOfEvaluation) ∧
          (run.result ≠ .error .tooDeep → ∀ result σ records,
            Evaluates session.root code session.store result σ records ↔
              result = run.result ∧ σ = run.store ∧ records = log)) ∧
        log.filterMap Record.defined? = (definitionsOf run.trace).map Prod.snd ∧
        (∀ definition ∈ definitionsOf run.trace,
          definition.1 ∈ (scopesAfter [session.root] run.trace).map Scope.frame) ∧
        session.store.Explains run.trace handled.session.store) := by
  refine ⟨fun hblank => ?_, fun hblank => ?_⟩
  · rw [handledAfter, handleLineWithin_of_blank hblank]
  · intro session handled
    refine ⟨fun e => records_of_error hblank, fun code rest hread => ?_⟩
    intro run log
    have hproper : session.store.Binds Value.IsProper :=
      isProper_sessionAfter Session.isProper_fresh depth before
    obtain ⟨made, hlinked, hroot⟩ : ∃ made, session.store.IsLinked made ∧ session.root ∈ made :=
      exists_isLinked_sessionAfter Session.isLinked_fresh (List.mem_singleton.2 rfl) before
    obtain ⟨hsession, hsilent, hmessage, -⟩ := handleLineWithin_of_ok hblank hread hproper
    have hstore : handled.session.store = run.store := congrArg Session.store hsession
    refine ⟨⟨fun v => records_of_value hblank hread hproper, fun e he hne => ?_,
        fun hdeep => ⟨?_, ?_⟩⟩,
      ⟨fun _ => isOfEvaluation_of_mem_recordsOf, fun hdeep result σ records => ?_⟩,
      filterMap_defined?_recordsOf run.trace,
      frame_mem_of_mem_definitionsOf depth session.root code session.store, ?_⟩
    · obtain ⟨hkind, hsaid⟩ := hmessage e he hne
      have hrecords := records_of_failed hblank hread he
      rw [if_pos hkind] at hrecords
      refine ⟨hkind, hrecords, e.message, ?_, rfl⟩
      show (handleLineWithin depth session line).reply? = _
      rw [Handled.reply?, hsaid]
    · have hrecords := records_of_failed hblank hread hdeep
      rwa [if_neg (by simp [EvalError.kind?]), List.append_nil] at hrecords
    · show (handleLineWithin depth session line).reply? = none
      rw [Handled.reply?, hsilent hdeep]
    · rw [evaluates_iff hdeep, Evaluation.ComesTo]
      exact and_congr eq_comm (and_congr eq_comm eq_comm)
    · rw [hstore]
      exact hlinked.explains_evaluate hroot (Reader.capturesFrom_of_parse hread made) depth

/-- A line that fails behind a call with too few arguments: what its argument defined stands before
the call, and what the body defined behind it. -/
example :
    let handled := handledAfter 50 Session.fresh ["(defun f (x y) (defparameter z x))"]
      "(+ (f (defparameter a t)) b)"
    (handled.records.drop 2).map Record.message =
      ["defparameter a", "applying <closure (x y)> to 1 argument(s)", "defparameter z",
        "evaluation error: unbound variable: b"] := by
  decide +kernel

end Shell

end MiniLisp
