/-
# Arguments of the command line

Before anything is done with them all arguments are told apart: options, which may be
abbreviated as long as one option only begins like that, and everything else.  An option
takes its value from the same argument, after an equals sign, or from the next one.
-/
import MiniLisp.Text.Digit
import MiniLisp.Text.Quoted

namespace MiniLisp.CommandLine

/-- The options. -/
inductive Flag where
  | help
  | history
  | logLevel
deriving DecidableEq, Repr

/-- The names of the options, in order. -/
def flagNames : List (String × Flag) :=
  [("-h", .help), ("--help", .help), ("--history", .history), ("--log-level", .logLevel)]

/-- The names of an option as a message shows them. -/
def Flag.shown : Flag → String
  | .help => "-h/--help"
  | .history => "--history"
  | .logLevel => "--log-level"

/-- Why the arguments are refused. -/
inductive UsageError where
  /-- More than one option begins like the argument. -/
  | ambiguous (argument : String) (names : List String)
  /-- An option that needs a value is not followed by one. -/
  | missingValue (flag : Flag)
  /-- An option that takes no value is given one. -/
  | needlessValue (flag : Flag) (value : String)
  /-- Some arguments are neither options nor values of options. -/
  | unrecognized (arguments : List String)
  /-- There is no level of the log with the name. -/
  | unknownLevel (name : String)
deriving DecidableEq, Repr

/-- The error in words. -/
def UsageError.message : UsageError → String
  | .ambiguous argument names =>
    "ambiguous option: " ++ argument ++ " could match " ++ ", ".intercalate names
  | .missingValue flag => "argument " ++ flag.shown ++ ": expected one argument"
  | .needlessValue flag value =>
    "argument " ++ flag.shown ++ ": ignored explicit argument " ++ Text.quoted value
  | .unrecognized arguments => "unrecognized arguments: " ++ " ".intercalate arguments
  | .unknownLevel name => "unknown log level: " ++ name

/-- An argument by what it is. -/
inductive Argument where
  /-- An option, by the name it stands for, and the value that the argument holds. -/
  | option (name : String) (flag : Flag) (value : Option String)
  /-- Something that looks like an option but is none. -/
  | unknown (text : String)
  /-- The argument after which there are no options. -/
  | marker
  /-- Any other argument. -/
  | plain (text : String)
deriving DecidableEq, Repr

/-! ### Telling arguments apart -/

/-- The characters of an argument before the first equals sign, and those after it if there is
one. -/
def splitValue (chars : List Char) : List Char × Option (List Char) :=
  match chars.dropWhile (· ≠ '=') with
  | [] => (chars, none)
  | _ :: value => (chars.takeWhile (· ≠ '='), some value)

/-- The options that an argument may stand for, with the value that it would hold. -/
def candidates (chars : List Char) : List (String × Flag × Option String) :=
  match chars with
  | '-' :: '-' :: _ =>
    let (start, value) := splitValue chars
    flagNames.filterMap fun (name, flag) =>
      if start.isPrefixOf name.toList then some (name, flag, value.map String.ofList) else none
  | _ =>
    flagNames.filterMap fun (name, flag) =>
      if name.toList = chars.take 2 then some (name, flag, some (String.ofList (chars.drop 2)))
      else if chars.isPrefixOf name.toList then some (name, flag, none)
      else none

/-- Whether an argument is a negative number; a line feed at its end is passed over. -/
def isNegativeNumber (chars : List Char) : Bool :=
  match chars with
  | '-' :: digits =>
    let digits := if digits.getLast? = some '\n' then digits.dropLast else digits
    match digits.dropWhile Text.isAnyDigit with
    | [] => !digits.isEmpty
    | '.' :: fraction => !fraction.isEmpty && fraction.all Text.isAnyDigit
    | _ => false
  | _ => false

/-- What an argument is that does not follow the marker. -/
def classify (text : String) : Except UsageError Argument :=
  let chars := text.toList
  if text = "--" then .ok .marker
  else if chars.head? ≠ some '-' then .ok (.plain text)
  else
    match flagNames.lookup text with
    | some flag => .ok (.option text flag none)
    | none =>
      if chars.length = 1 then .ok (.plain text)
      else
        let (start, value) := splitValue chars
        match value, flagNames.lookup (String.ofList start) with
        | some value, some flag =>
          .ok (.option (String.ofList start) flag (some (String.ofList value)))
        | _, _ =>
          match candidates chars with
          | [(name, flag, value)] => .ok (.option name flag value)
          | [] =>
            if isNegativeNumber chars || chars.contains ' ' then .ok (.plain text)
            else .ok (.unknown text)
          | several => .error (.ambiguous text (several.map Prod.fst))

/-- What the arguments are, in order; after the marker none is an option. -/
def classifyAll : List String → Except UsageError (List Argument)
  | [] => .ok []
  | text :: rest => do
    match ← classify text with
    | .marker => pure (.marker :: rest.map .plain)
    | argument => pure (argument :: (← classifyAll rest))

end MiniLisp.CommandLine
