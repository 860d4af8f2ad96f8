/-
# Levels of the log
-/
import MiniLisp.Text.Upper

namespace MiniLisp

/-- How serious a record has to be for the log to show it. -/
inductive LogLevel where
  | notset
  | debug
  | info
  | warning
  | error
  | critical
deriving DecidableEq, Repr

namespace LogLevel

/-- The level as a number. -/
def severity : LogLevel → Nat
  | .notset => 0
  | .debug => 10
  | .info => 20
  | .warning => 30
  | .error => 40
  | .critical => 50

/-- The names of the levels; two of them have a second name. -/
def names : List (String × LogLevel) :=
  [("CRITICAL", .critical), ("FATAL", .critical), ("ERROR", .error), ("WARN", .warning),
    ("WARNING", .warning), ("INFO", .info), ("DEBUG", .debug), ("NOTSET", .notset)]

/-- The level with a name, in whatever case the name is written. -/
def ofName? (name : String) : Option LogLevel := names.lookup (Text.upper name)

end LogLevel

end MiniLisp
