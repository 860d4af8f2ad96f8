/-
# Cursors

A cursor is a position in a source together with what follows it.
-/
import MiniLisp.Text.Blank

namespace MiniLisp

/-- A place in a source. -/
structure Cursor where
  /-- The number of characters before the place. -/
  pos : Nat
  /-- The characters after it. -/
  rest : List Char
deriving DecidableEq, Repr

namespace Cursor

/-- The start of a source. -/
def start (source : List Char) : Cursor := ⟨0, source⟩

/-- The next character. -/
def peek? (c : Cursor) : Option Char := c.rest.head?

/-- The place some characters further on. -/
def advance (c : Cursor) (count : Nat) : Cursor := ⟨c.pos + count, c.rest.drop count⟩

/-- The number of characters up to the first one that does not have a property. -/
def countWhile (p : Char → Bool) (c : Cursor) : Nat := (c.rest.takeWhile p).length

/-- The place after all separators that follow. -/
def skipSeparators (c : Cursor) : Cursor := c.advance (c.countWhile Text.isSeparator)

@[simp] theorem advance_zero (c : Cursor) : c.advance 0 = c := rfl

theorem drop_length_takeWhile (p : Char → Bool) (chars : List Char) :
    chars.drop (chars.takeWhile p).length = chars.dropWhile p := by
  induction chars with
  | nil => rfl
  | cons ch chars ih => cases h : p ch <;> simp [h, ih]

@[simp] theorem rest_skipSeparators (c : Cursor) :
    c.skipSeparators.rest = c.rest.dropWhile Text.isSeparator :=
  drop_length_takeWhile Text.isSeparator c.rest

end Cursor

end MiniLisp
