/-
# Reading expressions

An expression is an atom, a text or a list.  An atom is the longest run of symbol
characters; it is a number if the whole run spells a decimal, and a symbol otherwise.  A
text runs to the first quote that no backslash stands before, and keeps its characters as
they are.  The elements of a list stand between parentheses with separators between them.

Reading gives a value or an error, and in both cases the place where it stopped.
-/
import MiniLisp.Decimal.Basic
import MiniLisp.Reader.Cursor
import MiniLisp.Reader.Error
import MiniLisp.Value.Basic

namespace MiniLisp.Reader

/-- The answer of a reading step and the place where it stopped. -/
abbrev Step (α : Type) := Except ReadError α × Cursor

/-- Whether a character may stand in a symbol. -/
def isSymbolChar (c : Char) : Bool :=
  c.isAlphanum || "!$%&*+-./:<=>?@^_~".toList.contains c

/-! ### Atoms -/

/-- The value of a run of symbol characters. -/
def atomOf (run : List Char) : Value :=
  match Decimal.ofRun? run with
  | some d => .number d.toBinary64
  | none => .symbol (String.ofList run)

/-- The run of symbol characters at a place. -/
def run (c : Cursor) : List Char := c.rest.takeWhile isSymbolChar

/-- Reads an atom. -/
def atom (c : Cursor) : Step Value :=
  match run c with
  | [] =>
    match c.peek? with
    | none => (.error .unexpectedEnd, c)
    | some found => (.error (.unexpectedChar c.pos found), c)
  | head :: tail => (.ok (atomOf (head :: tail)), c.advance (head :: tail).length)

/-- Reads a number, if the run of symbol characters at the place spells one; otherwise it does
not move. -/
def number? (c : Cursor) : Option Binary64 × Cursor :=
  match Decimal.ofRun? (run c) with
  | some d => (some d.toBinary64, c.advance (run c).length)
  | none => (none, c)

/-! ### Texts -/

/-- The characters up to the closing quote of a text and those after the quote. -/
def splitText? : List Char → Option (List Char × List Char)
  | [] => none
  | '\\' :: '"' :: chars => (splitText? chars).map fun (s, rest) => ('\\' :: '"' :: s, rest)
  | '"' :: chars => some ([], chars)
  | c :: chars => (splitText? chars).map fun (s, rest) => (c :: s, rest)

/-- Reads a text; the opening quote is the next character.  A text that is not closed is not
passed over. -/
def text (c : Cursor) : Step Value :=
  match splitText? (c.rest.drop 1) with
  | some (s, _) => (.ok (.text (String.ofList s)), c.advance (s.length + 2))
  | none => (.error .unterminatedText, c)

/-! ### Expressions -/

mutual

/-- Reads an expression that nests at most `fuel` calls of the reader. -/
def exprWithin : (fuel : Nat) → Cursor → Step Value
  | 0, c => (.error .unexpectedEnd, c)
  | fuel + 1, c =>
    match c.peek? with
    | none => (.error .unexpectedEnd, c)
    | some '"' => text c
    | some '(' =>
      let c := (c.advance 1).skipSeparators
      if c.peek? = some ')' then (.ok (.list []), c.advance 1)
      else
        match exprWithin fuel c with
        | (.error e, c) => (.error e, c)
        | (.ok v, c) =>
          match itemsWithin fuel c with
          | (.error e, c) => (.error e, c)
          | (.ok vs, c) => (.ok (.list (v :: vs)), c)
    | some _ => atom c

/-- Reads the elements that follow an element of a list, and the closing parenthesis. -/
def itemsWithin : (fuel : Nat) → Cursor → Step (List Value)
  | 0, c => (.error .unmatchedOpen, c)
  | fuel + 1, c =>
    let next := c.skipSeparators
    match next.peek? with
    | none => (.error .unmatchedOpen, next)
    | some ')' => (.ok [], next.advance 1)
    | some found =>
      if next.pos = c.pos then (.error (.expectedClose c.pos found), c)
      else
        match exprWithin fuel next with
        | (.error e, c) => (.error e, c)
        | (.ok v, c) =>
          match itemsWithin fuel c with
          | (.error e, c) => (.error e, c)
          | (.ok vs, c) => (.ok (v :: vs), c)

end

/-- Reads an expression that begins right at the place.  Every nested call begins further on, so
the number of characters left bounds their depth. -/
def expr (c : Cursor) : Step Value := exprWithin (c.rest.length + 1) c

/-- Skips separators and reads an expression. -/
def read (c : Cursor) : Step Value := expr c.skipSeparators

/-! ### Sources -/

/-- A source: a text, or bytes that should be the UTF-8 form of one. -/
inductive Source where
  | text (s : String)
  | bytes (utf8 : List UInt8)
deriving Repr

/-- The start of a source, if it is a text. -/
def Source.open? : Source → Except ReadError Cursor
  | .text s => .ok (.start s.toList)
  | .bytes utf8 =>
    match Text.Utf8.decode utf8 with
    | .ok chars => .ok (.start chars)
    | .error fault => .error (.invalidUtf8 fault)

/-- The first expression of a source, with the place after it.  What follows is not looked at. -/
def parse (source : Source) : Except ReadError (Value × Cursor) :=
  match source.open? with
  | .error e => .error e
  | .ok c =>
    match read c with
    | (.ok v, c) => .ok (v, c)
    | (.error e, _) => .error e

end MiniLisp.Reader
