/-
# What the program tells about its options
-/

namespace MiniLisp.CommandLine

/-- The options at a glance. -/
def usage : String := "usage: rlisp [-h] [--history HISTORY] [--log-level LOG_LEVEL]"

/-- The options one by one. -/
def help : String :=
  "\n".intercalate
    [usage, "", "rlisp interactive shell", "", "options:",
      "  -h, --help            show this help message and exit",
      "  --history HISTORY     history file (default: $RLISP_HISTORY_FILE or",
      "                        history.txt)",
      "  --log-level LOG_LEVEL",
      "                        logging level name (default: $RLISP_LOG_LEVEL or",
      "                        WARNING)"]

end MiniLisp.CommandLine
