/-
# Reading step by step

A source may be read in any order of steps, and after an error reading may go on from where
it stopped.
-/
import MiniLisp.Reader.Basic

namespace MiniLisp.Reader

/-- A step of reading. -/
inductive Command where
  /-- Skip separators and read an expression. -/
  | read
  /-- Read an expression that begins right here. -/
  | expr
  /-- Read a number, if there is one. -/
  | number
  /-- Look at the next character. -/
  | peek
  /-- Skip separators. -/
  | skip
  /-- Look at everything that is left. -/
  | remainder
deriving DecidableEq, Repr

/-- The answer to a step. -/
inductive Reply where
  | value (v : Value)
  | number (x : Option Binary64)
  | next (c : Option Char)
  | skipped (count : Nat)
  | remainder (chars : List Char)
  | error (e : ReadError)
deriving Repr

/-- The answer to a step that reads an expression. -/
def Reply.ofExcept : Except ReadError Value → Reply
  | .ok v => .value v
  | .error e => .error e

/-- Takes a step. -/
def perform (c : Cursor) : Command → Reply × Cursor
  | .read => (.ofExcept (read c).1, (read c).2)
  | .expr => (.ofExcept (expr c).1, (expr c).2)
  | .number => (.number (number? c).1, (number? c).2)
  | .peek => (.next c.peek?, c)
  | .skip => (.skipped (c.countWhile Text.isSeparator), c.skipSeparators)
  | .remainder => (.remainder c.rest, c)

/-- Takes steps one after another; each answer comes with the place after the step. -/
def performAll (c : Cursor) : List Command → List (Reply × Cursor)
  | [] => []
  | command :: rest =>
    let answer := perform c command
    answer :: performAll answer.2 rest

end MiniLisp.Reader
