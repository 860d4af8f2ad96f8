/-
# Settings

Three settings come from environment variables; a variable that is empty counts as not set.
-/
import MiniLisp.Settings.LogLevel
import MiniLisp.Settings.Path

namespace MiniLisp

/-- Environment variables and their values. -/
abbrev Variables := List (String × String)

/-- The value of a variable if it is set and not empty, else a default. -/
def Variables.valueOr (env : Variables) (name default : String) : String :=
  match env.lookup name with
  | some value => if value = "" then default else value
  | none => default

/-- The settings of a shell. -/
structure Settings where
  /-- What the shell asks for a line with. -/
  prompt : String
  /-- How serious the records are that the log shows. -/
  logLevel : LogLevel
  /-- Where the history file is. -/
  history : Path
deriving Repr

/-- The settings that the environment variables make.  An unknown level counts as that of
warnings. -/
def Settings.ofVariables (env : Variables) : Settings where
  prompt := env.valueOr "RLISP_PROMPT" "rl> "
  logLevel := (LogLevel.ofName? (env.valueOr "RLISP_LOG_LEVEL" "WARNING")).getD .warning
  history :=
    (Path.ofString (env.valueOr "RLISP_HISTORY_FILE" "history.txt")).expandHome
      (env.lookup "HOME")

end MiniLisp
