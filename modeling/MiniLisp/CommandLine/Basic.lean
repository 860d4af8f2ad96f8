/-
# The command line

The arguments choose the history file and the level of the log; where they do not, the
settings do.  Of an option that is given more than once the last value counts.
-/
import MiniLisp.CommandLine.Argument
import MiniLisp.Settings.Basic

namespace MiniLisp.CommandLine

/-- The values of the options. -/
structure Options where
  /-- Where the history file is. -/
  history : Option String
  /-- The name of the level of the log. -/
  logLevel : Option String
deriving DecidableEq, Repr

namespace Options

/-- The options before any is given. -/
def none : Options := ⟨.none, .none⟩

/-- The options with one more value.  The marker is no value, also when it is in the same
argument as the option. -/
def set (options : Options) (flag : Flag) (value : String) : Options :=
  let value := if value = "--" then Option.none else some value
  match flag with
  | .help => options
  | .history => { options with history := value }
  | .logLevel => { options with logLevel := value }

end Options

/-- What the arguments ask for. -/
inductive Request where
  /-- To be told about the options. -/
  | help
  /-- A session. -/
  | session (options : Options)
deriving DecidableEq, Repr

/-- What becomes of a value that the option for help is given.  One that is in the same
argument as the short name may ask for help over and over. -/
def helpWith (name value : String) : Except UsageError Request :=
  if name = "-h" ∧ value ≠ "" then
    match value.toList.dropWhile (· = 'h') with
    | [] => .ok .help
    | rest => .error (.needlessValue .help (String.ofList rest))
  else .error (.needlessValue .help value)

/-- Takes the arguments in order: options take their values, and what is left over is refused
at the end. -/
def take (options : Options) (extras : List String) :
    List Argument → Except UsageError Request
  | [] => if extras.isEmpty then .ok (.session options) else .error (.unrecognized extras)
  | .plain text :: rest => take options (extras ++ [text]) rest
  | .unknown text :: rest => take options (extras ++ [text]) rest
  | .marker :: rest => take options (extras ++ ["--"]) rest
  | .option _ .help none :: _ => .ok .help
  | .option name .help (some value) :: _ => helpWith name value
  | .option _ flag (some value) :: rest => take (options.set flag value) extras rest
  | .option _ flag none :: .plain text :: rest => take (options.set flag text) extras rest
  | .option _ flag none :: _ => .error (.missingValue flag)

/-- What the arguments ask for, or why they are refused. -/
def parse (arguments : List String) : Except UsageError Request := do
  take .none [] (← classifyAll arguments)

/-! ### Settings and options together -/

/-- How the program starts. -/
inductive Start where
  /-- It tells about its options. -/
  | help
  /-- It refuses its arguments. -/
  | refused (e : UsageError)
  /-- It starts a shell. -/
  | shell (settings : Settings)
deriving Repr

/-- The level of the log that is asked for; an empty name asks for none. -/
def chosenLevel (settings : Settings) : Option String → Except UsageError LogLevel
  | none => .ok settings.logLevel
  | some name =>
    if name = "" then .ok settings.logLevel
    else
      match LogLevel.ofName? name with
      | some level => .ok level
      | none => .error (.unknownLevel name)

/-- How the program starts with some environment variables and arguments. -/
def start (env : Variables) (arguments : List String) : Start :=
  let settings := Settings.ofVariables env
  match parse arguments with
  | .error e => .refused e
  | .ok .help => .help
  | .ok (.session options) =>
    match chosenLevel settings options.logLevel with
    | .error e => .refused e
    | .ok level =>
      .shell { settings with
        logLevel := level
        history := (options.history.map Path.ofString).getD settings.history }

/-- The exit status with which arguments are refused. -/
def refusedStatus : Nat := 2

/-- The line that says why arguments are refused. -/
def problem (e : UsageError) : String := "rlisp: error: " ++ e.message

end MiniLisp.CommandLine
