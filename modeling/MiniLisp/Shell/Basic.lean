/-
# The shell

The shell answers lines.  To a blank line it says nothing, to a line that cannot be read it
says the same whatever is wrong, and to any other line the display form of the value or the
message of the error.  It goes on until the input ends or is interrupted, or until something
fails in a way that is of no kind: this is not handled and ends the shell at once.
-/
import MiniLisp.Session.Basic
import MiniLisp.Shell.History
import MiniLisp.Text.Blank

namespace MiniLisp.Shell

/-- What the shell says to a line that cannot be read. -/
def unreadableMessage : String := "Error!"

/-- What the shell says when it ends. -/
def exitMessage : String := "exiting..."

/-! ### One line -/

/-- What the shell says to an answer.  It handles failures by their kind; one that is of no kind
it cannot answer. -/
def reply (answer : Answer) : Except Failure String :=
  match answer.display with
  | .ok s => .ok s
  | .error failure =>
    match failure.kind? with
    | some .unreadable => .ok unreadableMessage
    | some _ => .ok failure.message
    | none => .error failure

/-- The record of a failure, if there is one that is of some kind. -/
def failureRecord (answer : Answer) : List Record :=
  match answer.display with
  | .ok _ => []
  | .error (.unreadable e) => [.unreadable e]
  | .error (.failed e) => if e.kind?.isSome then [.failed e] else []

/-- How a line was handled. -/
structure Handled where
  /-- What the shell says, if anything, or the failure that it cannot answer. -/
  said : Except Failure (Option String)
  /-- The records of the log. -/
  records : List Record
  /-- The session after the line. -/
  session : Session

/-- What the shell says. -/
def Handled.reply? (handled : Handled) : Option String :=
  match handled.said with
  | .ok reply? => reply?
  | .error _ => none

/-- Handles a line if evaluations may nest to a depth. -/
def handleLineWithin (depth : Nat) (session : Session) (line : String) : Handled :=
  if Text.isBlankLine line then ⟨.ok none, [], session⟩
  else
    let answer := session.answerWithin depth (.text line)
    ⟨(reply answer).map some, answer.records ++ failureRecord answer, session.after answer⟩

/-- Handles a line. -/
def handleLine (session : Session) (line : String) : Handled :=
  handleLineWithin Session.maxDepth session line

/-! ### A whole session -/

/-- What the shell is given when it asks for a line. -/
inductive Input where
  | line (text : String)
  | endOfFile
  | interrupt
deriving DecidableEq, Repr

/-- What a shell said and asked until it ended. -/
structure Transcript where
  /-- The lines it wrote. -/
  output : List String
  /-- The number of times it asked for a line. -/
  asked : Nat
  /-- The session at the end. -/
  session : Session
  /-- The status that it ended with, or the failure that ended it. -/
  ending : Except Failure Nat

/-- Asks for lines until there is none, if evaluations may nest to a depth; after the last input
the shell finds the end of the file.  A failure that it cannot answer ends it without last words,
and the inputs behind it stay unread. -/
def transcriptWithin (depth : Nat) (session : Session) : List Input → Transcript
  | .line text :: rest =>
    let handled := handleLineWithin depth session text
    match handled.said with
    | .ok reply? =>
      let transcript := transcriptWithin depth handled.session rest
      { transcript with
        output := reply?.toList ++ transcript.output
        asked := transcript.asked + 1 }
    | .error failure => ⟨[], 1, handled.session, .error failure⟩
  | _ => ⟨[exitMessage], 1, session, .ok 0⟩

/-- How a shell ended. -/
structure Outcome where
  /-- The status that it ended with, or the failure that ended it. -/
  ending : Except Failure Nat
  /-- The lines it wrote. -/
  output : List String
  /-- The prompts it asked with. -/
  prompts : List String
  /-- The history file as it was left. -/
  history : HistoryFile
  /-- What it warned of. -/
  warnings : List Warning

/-- The exit status of the program.  What ends the shell ends the program too. -/
def exitStatus : Except Failure Nat → Nat
  | .ok status => status
  | .error _ => 1

/-- The exit status of the program that ran a shell. -/
def Outcome.status (outcome : Outcome) : Nat := exitStatus outcome.ending

/-- The text that a shell wrote: each line with a line feed behind it. -/
def Outcome.text (outcome : Outcome) : String := String.join (outcome.output.map (· ++ "\n"))

/-- Runs a shell with a prompt and a history file on a session, if evaluations may nest to a
depth.  The history file is written however the shell ends. -/
def runWithin (depth : Nat) (session : Session) (prompt : String) (history : HistoryFile)
    (inputs : List Input) : Outcome :=
  let transcript := transcriptWithin depth session inputs
  { ending := transcript.ending
    output := transcript.output
    prompts := List.replicate transcript.asked prompt
    history := history.saved
    warnings := history.warnings }

/-- Runs a shell with a prompt and a history file on a session. -/
def run (session : Session) (prompt : String) (history : HistoryFile) (inputs : List Input) :
    Outcome :=
  runWithin Session.maxDepth session prompt history inputs

end MiniLisp.Shell
