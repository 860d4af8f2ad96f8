/-
# The program

Reads lines from the standard input and writes what the shell says to the standard output;
records of the log, warnings and a failure that ends the shell go to the standard error.
-/
import MiniLisp.CommandLine.Basic
import MiniLisp.CommandLine.Help
import MiniLisp.Shell.Basic

namespace MiniLisp.Program

/-- The environment variables that the settings are made of. -/
def readVariables : IO Variables := do
  let names := ["RLISP_PROMPT", "RLISP_LOG_LEVEL", "RLISP_HISTORY_FILE", "HOME"]
  let found ← names.mapM fun name => do
    let value ← IO.getEnv name
    pure (value.map fun value => (name, value))
  pure (found.filterMap id)

/-- Answers lines until there is none or one cannot be answered. -/
partial def answerLines (settings : Settings) (session : Session) :
    IO (Except Failure Nat) := do
  let input ← IO.getStdin
  let output ← IO.getStdout
  output.putStr settings.prompt
  output.flush
  let line ← input.getLine
  if line.isEmpty then
    output.putStrLn Shell.exitMessage
    pure (.ok 0)
  else
    let handled := Shell.handleLine session (line.dropEndWhile (· = '\n')).toString
    if settings.logLevel.severity ≤ LogLevel.debug.severity then
      for record in handled.records do
        IO.eprintln s!"DEBUG: {record.message}"
    match handled.said with
    | .error failure => pure (.error failure)
    | .ok reply? =>
      if let some reply := reply? then output.putStrLn reply
      answerLines settings handled.session

/-- The history file at a path, as it is found. -/
def findHistory (path : String) : IO HistoryFile := do
  try
    let text ← IO.FS.readFile path
    pure (.holding ((text.splitOn "\n").filter (· ≠ "")))
  catch
    | .noFileOrDirectory .. => pure .absent
    | _ => pure .unusable

/-- Runs a shell with some settings and gives the exit status. -/
def runShell (settings : Settings) : IO Nat := do
  let path := settings.history.toString
  let history ← findHistory path
  if history = .unusable then IO.eprintln s!"WARNING: {Warning.historyNotRead.message}"
  let ending ← answerLines settings Session.fresh
  try
    IO.FS.writeFile path (String.join ((history.saved.lines?.getD []).map (· ++ "\n")))
  catch _ => IO.eprintln s!"WARNING: {Warning.historyNotWritten.message}"
  if let .error failure := ending then IO.eprintln failure.message
  pure (Shell.exitStatus ending)

end MiniLisp.Program

open MiniLisp in
/-- Runs the program with its arguments. -/
def main (arguments : List String) : IO UInt32 := do
  match CommandLine.start (← Program.readVariables) arguments with
  | .help =>
    IO.println CommandLine.help
    pure 0
  | .refused e =>
    IO.eprintln CommandLine.usage
    IO.eprintln (CommandLine.problem e)
    pure CommandLine.refusedStatus.toUInt32
  | .shell settings => pure (← Program.runShell settings).toUInt32
