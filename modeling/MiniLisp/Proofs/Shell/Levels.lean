/-
# The levels of the shell

A run of the shell handles the lines up to the first signal, one after another, and to handle a
line is to read it, to evaluate what was read in the root and to display the value.  So what the
shell writes is put together from what each line means in the session that the lines before it
left, and a line changes this session by what its evaluation binds and in no other way.

Where nothing foreign is bound all failures are of some kind but one: an evaluation that nests
too deeply does not end as far as the language goes, and it ends the shell.
-/
import Mathlib.Data.List.Infix
import MiniLisp.Proofs.Session.Soundness
import MiniLisp.Shell.Basic

namespace MiniLisp.Shell

/-- The lines that a shell is given before the first signal. -/
def linesRead : List Input → List String
  | .line text :: rest => text :: linesRead rest
  | _ => []

/-- The session after some lines were handled. -/
def sessionAfter (depth : Nat) (session : Session) (lines : List String) : Session :=
  lines.foldl (fun session line => (handleLineWithin depth session line).session) session

/-- How a line is handled after the ones before it. -/
def handledAfter (depth : Nat) (session : Session) (before : List String) (line : String) :
    Handled :=
  handleLineWithin depth (sessionAfter depth session before) line

/-- What a shell says to some lines, to each after the ones before it. -/
def repliesTo (depth : Nat) (session : Session) (lines : List String) : List String :=
  (lines.inits.zip lines).flatMap fun (before, line) =>
    (handledAfter depth session before line).reply?.toList

/-- The evaluation of a line, if there is one, ends. -/
def Ends (depth : Nat) (session : Session) (line : String) : Prop :=
  ¬ Text.isBlankLine line → ∀ code rest, Reader.parse (.text line) = .ok (code, rest) →
    (evaluate depth session.root code session.store).result ≠ .error .tooDeep

/-- The evaluations of some lines end, each after the ones before it. -/
def AllEnd (depth : Nat) (session : Session) (lines : List String) : Prop :=
  ∀ before line rest, lines = before ++ line :: rest →
    Ends depth (sessionAfter depth session before) line

/-! ### Answers -/

section

variable {answer : Answer}

lemma reply_of_ok {s : String} (h : answer.display = .ok s) : reply answer = .ok s := by
  rw [reply, h]

/-- Errors of some kind are answered with their message. -/
lemma reply_of_kind {e : EvalError} (h : answer.display = .error (.failed e))
    (hkind : e.kind?.isSome) : reply answer = .ok e.message := by
  rw [reply, h]
  cases e with
  | undisplayable | tooDeep => cases hkind
  | _ => rfl

/-- A failure that is of no kind is not answered. -/
lemma reply_of_no_kind {failure : Failure} (h : answer.display = .error failure)
    (hkind : failure.kind? = none) : reply answer = .error failure := by
  rw [reply, h]
  simp only [hkind]

end

/-! ### One line -/

section

variable {depth : Nat} {session : Session} {line : String}

lemma handleLineWithin_of_blank (h : Text.isBlankLine line) :
    handleLineWithin depth session line = ⟨.ok none, [], session⟩ := by
  rw [handleLineWithin, if_pos h]

lemma handleLineWithin_of_not_blank (h : ¬ Text.isBlankLine line) :
    let answer := session.answerWithin depth (.text line)
    handleLineWithin depth session line =
      ⟨(reply answer).map some, answer.records ++ failureRecord answer, session.after answer⟩ := by
  rw [handleLineWithin, if_neg h]

lemma root_handleLineWithin :
    (handleLineWithin depth session line).session.root = session.root := by
  by_cases h : Text.isBlankLine line
  · rw [handleLineWithin_of_blank h]
  · rw [handleLineWithin_of_not_blank h]
    rfl

/-- Nothing foreign gets in with a line. -/
lemma isProper_handleLineWithin (h : session.store.Binds Value.IsProper) :
    (handleLineWithin depth session line).session.store.Binds Value.IsProper := by
  by_cases hblank : Text.isBlankLine line
  · rwa [handleLineWithin_of_blank hblank]
  · rw [handleLineWithin_of_not_blank hblank]
    exact (Session.isProper_answerWithin h depth (.text line)).1

/-- To a line that cannot be read the shell says the same whatever is wrong. -/
lemma handleLineWithin_of_error (hblank : ¬ Text.isBlankLine line) {e : ReadError}
    (h : Reader.parse (.text line) = .error e) :
    let handled := handleLineWithin depth session line
    handled.said = .ok (some unreadableMessage) ∧ handled.session = session := by
  rw [handleLineWithin_of_not_blank hblank, Session.answerWithin_of_error h]
  exact ⟨rfl, rfl⟩

/-- To any other line the shell says what its evaluation leads to, unless this does not end. -/
lemma handleLineWithin_of_ok (hblank : ¬ Text.isBlankLine line) {code : Value} {rest : Cursor}
    (h : Reader.parse (.text line) = .ok (code, rest))
    (hproper : session.store.Binds Value.IsProper) :
    let handled := handleLineWithin depth session line
    let run := evaluate depth session.root code session.store
    handled.session = ⟨run.store, session.root⟩ ∧
      (run.result = .error .tooDeep → handled.said = .error (.failed .tooDeep)) ∧
      (∀ e, run.result = .error e → e ≠ .tooDeep →
        e.kind?.isSome ∧ handled.said = .ok (some e.message)) ∧
      ∀ v, run.result = .ok v → v.isDisplayable ∧ handled.said = .ok (some v.display) := by
  intro handled run
  have hcode : code.IsProper := (Reader.isReadable_of_parse h).isProper
  obtain ⟨-, hvalue, herror⟩ := hproper.evaluate_proper hcode depth session.root
  have hhandled : handled = _ := handleLineWithin_of_not_blank hblank
  have hdisplay : ∀ e, run.result = .error e →
      (Answer.evaluated code rest.rest.length run).display = .error (.failed e) :=
    fun e he => Answer.display_of_error (Answer.result_evaluated_of_error he)
  rw [hhandled, Session.answerWithin_of_ok h]
  refine ⟨rfl, fun he => ?_, fun e he hdeep => ?_, fun v hv => ?_⟩
  · rw [reply_of_no_kind (hdisplay _ he) rfl]
    rfl
  · have hkind : e.kind?.isSome := (herror e he).resolve_right hdeep
    rw [reply_of_kind (hdisplay e he) hkind]
    exact ⟨hkind, rfl⟩
  · have hshown : v.isDisplayable := (hvalue v hv).isDisplayable
    rw [reply_of_ok (Answer.display_of_ok (Answer.result_evaluated_of_ok hv) hshown)]
    exact ⟨hshown, rfl⟩

/-- A line whose evaluation ends is answered or passed over in silence. -/
lemma exists_said_of_ends (hproper : session.store.Binds Value.IsProper)
    (h : Ends depth session line) :
    ∃ reply?, (handleLineWithin depth session line).said = .ok reply? := by
  by_cases hblank : Text.isBlankLine line
  · exact ⟨none, by rw [handleLineWithin_of_blank hblank]⟩
  cases hread : Reader.parse (.text line) with
  | error e => exact ⟨_, (handleLineWithin_of_error hblank hread).1⟩
  | ok read =>
    obtain ⟨code, rest⟩ := read
    obtain ⟨-, -, herror, hvalue⟩ := handleLineWithin_of_ok hblank hread hproper
    cases hresult : (evaluate depth session.root code session.store).result with
    | ok v => exact ⟨_, (hvalue v hresult).2⟩
    | error e =>
      have hne : e ≠ .tooDeep := by
        rintro rfl
        exact h hblank code rest hread hresult
      exact ⟨_, (herror e hresult hne).2⟩

/-- An evaluation that does not end ends the shell. -/
lemma said_of_not_ends (hproper : session.store.Binds Value.IsProper)
    (h : ¬ Ends depth session line) :
    (handleLineWithin depth session line).said = .error (.failed .tooDeep) := by
  simp only [Ends, not_forall, not_not] at h
  obtain ⟨hblank, code, rest, hread, hdeep⟩ := h
  exact (handleLineWithin_of_ok hblank hread hproper).2.1 hdeep

lemma ends_of_isOk (hproper : session.store.Binds Value.IsProper)
    (h : (handleLineWithin depth session line).said.isOk) : Ends depth session line := by
  by_contra hends
  rw [said_of_not_ends hproper hends] at h
  cases h

end

/-! ### Many lines -/

lemma root_sessionAfter (depth : Nat) (session : Session) (lines : List String) :
    (sessionAfter depth session lines).root = session.root := by
  induction lines generalizing session with
  | nil => rfl
  | cons line lines ih => exact (ih _).trans root_handleLineWithin

lemma isProper_sessionAfter {session : Session} (h : session.store.Binds Value.IsProper)
    (depth : Nat) (lines : List String) :
    (sessionAfter depth session lines).store.Binds Value.IsProper := by
  induction lines generalizing session with
  | nil => exact h
  | cons line lines ih => exact ih (isProper_handleLineWithin h)

lemma zip_inits_cons {α : Type} (a : α) (l : List α) :
    (a :: l).inits.zip (a :: l) =
      ([], a) :: (l.inits.zip l).map fun (before, b) => (a :: before, b) := by
  rw [List.inits_cons, List.zip_cons_cons, List.zip_map_left]
  rfl

section

variable {depth : Nat} {session : Session} {line : String} {lines : List String}

lemma repliesTo_cons :
    repliesTo depth session (line :: lines) = (handleLineWithin depth session line).reply?.toList ++
      repliesTo depth (handleLineWithin depth session line).session lines := by
  rw [repliesTo, zip_inits_cons, List.flatMap_cons, List.flatMap_map]
  rfl

lemma allEnd_nil : AllEnd depth session [] := by
  intro before line rest h
  simp at h

lemma allEnd_cons :
    AllEnd depth session (line :: lines) ↔ Ends depth session line ∧
      AllEnd depth (handleLineWithin depth session line).session lines := by
  constructor
  · intro h
    refine ⟨h [] line lines rfl, fun before other rest heq => ?_⟩
    exact h (line :: before) other rest (by rw [heq, List.cons_append])
  · rintro ⟨hfirst, hrest⟩ before other rest heq
    cases before with
    | nil =>
      obtain ⟨rfl, rfl⟩ := List.cons.inj heq
      exact hfirst
    | cons _ before =>
      obtain ⟨rfl, rfl⟩ := List.cons.inj heq
      exact hrest before other rest rfl

/-- Evaluations end where all lines are answered. -/
lemma allEnd_of_isOk (h : session.store.Binds Value.IsProper)
    (hall : ∀ p ∈ lines.inits.zip lines, (handledAfter depth session p.1 p.2).said.isOk) :
    AllEnd depth session lines := by
  induction lines generalizing session with
  | nil => exact allEnd_nil
  | cons line lines ih =>
    rw [zip_inits_cons, List.forall_mem_cons, List.forall_mem_map] at hall
    exact allEnd_cons.2 ⟨ends_of_isOk h hall.1, ih (isProper_handleLineWithin h) hall.2⟩

end

/-! ### A whole run -/

section

variable {depth : Nat} {session : Session}

/-- What comes after the first signal makes no difference. -/
lemma transcriptWithin_linesRead (depth : Nat) (session : Session) (inputs : List Input) :
    transcriptWithin depth session ((linesRead inputs).map .line) =
      transcriptWithin depth session inputs := by
  induction inputs generalizing session with
  | nil => rfl
  | cons input inputs ih =>
    cases input with
    | line text => simp only [linesRead, List.map_cons, transcriptWithin, ih]
    | _ => rfl

lemma transcriptWithin_of_ok {text : String} {reply? : Option String}
    (h : (handleLineWithin depth session text).said = .ok reply?) (rest : List Input) :
    transcriptWithin depth session (.line text :: rest) =
      let transcript := transcriptWithin depth (handleLineWithin depth session text).session rest
      { transcript with
        output := (handleLineWithin depth session text).reply?.toList ++ transcript.output
        asked := transcript.asked + 1 } := by
  simp only [transcriptWithin, h, Handled.reply?]

/-- Nothing is read behind a line that ends the shell. -/
lemma transcriptWithin_of_error {text : String} {failure : Failure}
    (h : (handleLineWithin depth session text).said = .error failure) (rest : List Input) :
    transcriptWithin depth session (.line text :: rest) =
      ⟨[], 1, (handleLineWithin depth session text).session, .error failure⟩ := by
  simp only [transcriptWithin, h]

/-- Behind lines whose evaluations end the shell goes on in the session that they left. -/
lemma transcriptWithin_append (h : session.store.Binds Value.IsProper) {first : List String}
    (hends : AllEnd depth session first) (rest : List Input) :
    transcriptWithin depth session (first.map .line ++ rest) =
      let transcript := transcriptWithin depth (sessionAfter depth session first) rest
      { transcript with
        output := repliesTo depth session first ++ transcript.output
        asked := first.length + transcript.asked } := by
  induction first generalizing session with
  | nil => simp [sessionAfter, repliesTo]
  | cons line first ih =>
    obtain ⟨hline, hfirst⟩ := allEnd_cons.1 hends
    obtain ⟨reply?, hsaid⟩ := exists_said_of_ends h hline
    rw [List.map_cons, List.cons_append, transcriptWithin_of_ok hsaid,
      ih (isProper_handleLineWithin h) hfirst, repliesTo_cons]
    simp [sessionAfter, Nat.add_right_comm]

/-- How a shell ends can be read off what it said and asked. -/
lemma runWithin_of_transcript {inputs : List Input} {transcript : Transcript}
    (h : transcriptWithin depth session inputs = transcript) (prompt : String)
    (history : HistoryFile) :
    runWithin depth session prompt history inputs =
      ⟨transcript.ending, transcript.output, List.replicate transcript.asked prompt,
        history.saved, history.warnings⟩ := by
  rw [runWithin, h]

end

/-- **The levels of the shell agree.**  Whatever inputs a shell is given, on a session where
nothing foreign is bound, and to whatever depth its evaluations may nest, what comes after the
first signal makes no difference, and the history file is written.

* If the evaluations of all lines before the signal end, the shell ends with status 0.  It has
  asked once for each of these lines and once for the signal or the end, and has written, in
  order, what it says to each line after the ones before it, with a line feed, or nothing, and
  then its last words.
* The first line whose evaluation does not end ends the shell, without a status and without last
  words: it was the last one that the shell asked for, and nothing is written behind what was
  said to the lines before.
* To a blank line the shell says nothing, to all lines that cannot be read it says the same, and
  neither changes the session.
* To any other line it says the display form of the value, or the message of an error that is of
  some kind, that the evaluation in the root leads to; what the evaluation bound stays, also if
  it failed or did not end. -/
theorem levels_agree (depth : Nat) (session : Session) (prompt : String)
    (history : HistoryFile) (inputs : List Input) (h : session.store.Binds Value.IsProper) :
    let lines := linesRead inputs
    let outcome := runWithin depth session prompt history inputs
    let last := (transcriptWithin depth session inputs).session
    let text := fun said : List String => String.join (said.map (· ++ "\n"))
    (outcome = runWithin depth session prompt history (lines.map .line) ∧
      outcome.history = history.saved ∧ outcome.warnings = history.warnings) ∧
    (AllEnd depth session lines →
      outcome.ending = .ok 0 ∧ outcome.prompts = List.replicate (lines.length + 1) prompt ∧
      outcome.text = text (repliesTo depth session lines) ++ "exiting...\n" ∧
      last = sessionAfter depth session lines) ∧
    (∀ first line rest, lines = first ++ line :: rest → AllEnd depth session first →
      ¬ Ends depth (sessionAfter depth session first) line →
      outcome.ending = .error (.failed .tooDeep) ∧
      outcome.prompts = List.replicate (first.length + 1) prompt ∧
      outcome.text = text (repliesTo depth session first) ∧
      last = sessionAfter depth session (first ++ [line])) ∧
    ∀ before line,
      let left := sessionAfter depth session before
      let handled := handledAfter depth session before line
      left.root = session.root ∧
      (Text.isBlankLine line → handled.said = .ok none ∧ handled.session = left) ∧
      (¬ Text.isBlankLine line →
        (∀ e, Reader.parse (.text line) = .error e →
          handled.said = .ok (some "Error!") ∧ handled.session = left) ∧
        ∀ code rest, Reader.parse (.text line) = .ok (code, rest) →
          let run := evaluate depth session.root code left.store
          handled.session = ⟨run.store, session.root⟩ ∧
          (run.result = .error .tooDeep → handled.said = .error (.failed .tooDeep)) ∧
          (∀ e, run.result = .error e → e ≠ .tooDeep →
            e.kind?.isSome ∧ handled.said = .ok (some e.message)) ∧
          ∀ v, run.result = .ok v → v.isDisplayable ∧ handled.said = .ok (some v.display)) := by
  intro lines outcome last text
  have hlines : transcriptWithin depth session (lines.map .line) =
      transcriptWithin depth session inputs := transcriptWithin_linesRead depth session inputs
  have hrun : outcome = runWithin depth session prompt history (lines.map .line) :=
    runWithin_of_transcript hlines.symm prompt history
  refine ⟨⟨hrun, rfl, rfl⟩, fun hends => ?_, fun first line rest heq hends hdeep => ?_,
    fun before line => ?_⟩
  · have htranscript := transcriptWithin_append h hends []
    rw [List.append_nil, hlines] at htranscript
    have houtcome : outcome = _ := runWithin_of_transcript htranscript prompt history
    have hlast : last = _ := congrArg Transcript.session htranscript
    rw [houtcome, hlast]
    refine ⟨rfl, rfl, ?_, rfl⟩
    simp [text, Outcome.text, transcriptWithin, exitMessage, String.join_append]
  · have hproper := isProper_sessionAfter h depth first
    have htranscript := transcriptWithin_append h hends (.line line :: rest.map .line)
    rw [transcriptWithin_of_error (said_of_not_ends hproper hdeep), ← List.map_cons,
      ← List.map_append, ← heq, hlines] at htranscript
    have houtcome : outcome = _ := runWithin_of_transcript htranscript prompt history
    have hlast : last = _ := congrArg Transcript.session htranscript
    rw [houtcome, hlast]
    refine ⟨rfl, rfl, ?_, ?_⟩
    · simp [text, Outcome.text]
    · simp [sessionAfter]
  · intro left handled
    have hroot : left.root = session.root := root_sessionAfter depth session before
    have hproper := isProper_sessionAfter h depth before
    refine ⟨hroot, fun hblank => ?_, fun hblank => ⟨fun e he => ?_, fun code rest hread => ?_⟩⟩
    · have hhandled : handled = ⟨.ok none, [], left⟩ := handleLineWithin_of_blank hblank
      rw [hhandled]
      exact ⟨rfl, rfl⟩
    · exact handleLineWithin_of_error hblank he
    · rw [← hroot]
      exact handleLineWithin_of_ok hblank hread hproper

/-- A shell that is interrupted: of the lines before that one is blank, one cannot be read, and
one fails behind a definition that the next line needs. -/
theorem levels_agree_interrupted :
    let inputs : List Input :=
      [.line "(defparameter a (quote b))", .line "\u00a0", .line "(a", .line "(a (defun f (x) a))",
        .line "(f t)", .interrupt, .line "a"]
    Session.fresh.store.Binds Value.IsProper ∧
      AllEnd 50 Session.fresh (linesRead inputs) ∧
      (runWithin 50 Session.fresh "> " .absent inputs).ending = .ok 0 ∧
      (runWithin 50 Session.fresh "> " .absent inputs).prompts =
        ["> ", "> ", "> ", "> ", "> ", "> "] ∧
      (runWithin 50 Session.fresh "> " .absent inputs).text =
        "a\nError!\nillegal function call: b\nb\nexiting...\n" := by
  intro inputs
  have hends : AllEnd 50 Session.fresh (linesRead inputs) :=
    allEnd_of_isOk Session.isProper_fresh (by decide +kernel)
  obtain ⟨-, hwhole, -⟩ := levels_agree 50 Session.fresh "> " .absent inputs Session.isProper_fresh
  obtain ⟨hending, hprompts, htext, -⟩ := hwhole hends
  exact ⟨Session.isProper_fresh, hends, hending, hprompts.trans (by decide),
    htext.trans (by decide +kernel)⟩

/-- Recursion without end ends the shell, and the line behind it is not read. -/
example :
    let outcome := runWithin 50 Session.fresh "> " (.holding ["t"])
      [.line "(defun f (n) (f n))", .line "(f 1)", .line "(+ 1 2)"]
    outcome.status = 1 ∧ outcome.text = "f\n" ∧ outcome.prompts = ["> ", "> "] ∧
      outcome.history = .holding ["t"] := by
  decide +kernel

end MiniLisp.Shell
