/-
# The history file

The shell reads its history file when it starts and writes it when it ends.  Neither can
stop it: what fails is only warned of.
-/

namespace MiniLisp

/-- A history file as the shell finds it. -/
inductive HistoryFile where
  /-- There is none yet, and it can be made. -/
  | absent
  /-- There is one, with some lines. -/
  | holding (lines : List String)
  /-- There is something that can be neither read nor written as a file. -/
  | unusable
  /-- There is none, and it cannot be made. -/
  | unreachable
deriving DecidableEq, Repr

/-- What the shell warns of. -/
inductive Warning where
  | historyNotRead
  | historyNotWritten
deriving DecidableEq, Repr

/-- A warning in words. -/
def Warning.message : Warning → String
  | .historyNotRead => "could not read history"
  | .historyNotWritten => "could not write history"

namespace HistoryFile

/-- The lines of the file, if there is one. -/
def lines? : HistoryFile → Option (List String)
  | .holding lines => some lines
  | _ => none

/-- The file after the shell has ended, if its lines were handed to it: these are not added to the
file.  A line that is typed at a terminal would be. -/
def saved : HistoryFile → HistoryFile
  | .absent => .holding []
  | file => file

/-- What the shell warns of when it reads the file and when it writes it. -/
def warnings : HistoryFile → List Warning
  | .absent | .holding _ => []
  | .unusable => [.historyNotRead, .historyNotWritten]
  | .unreachable => [.historyNotWritten]

end HistoryFile

end MiniLisp
