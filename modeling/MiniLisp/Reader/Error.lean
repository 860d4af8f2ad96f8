/-
# What the reader refuses

The faults of a source.  Where a fault is a character out of place the error holds the
character and its position, counted in characters from the start of the source.
-/
import MiniLisp.Text.Quoted
import MiniLisp.Text.Utf8

namespace MiniLisp

/-- Why no expression could be read. -/
inductive ReadError where
  /-- An expression cannot begin with the character. -/
  | unexpectedChar (pos : Nat) (found : Char)
  /-- The source ends where an expression has to begin. -/
  | unexpectedEnd
  /-- The source ends within a text. -/
  | unterminatedText
  /-- The source ends after an element of a list. -/
  | unmatchedOpen
  /-- An element of a list is followed by a character that neither separates it from the next
  one nor closes the list. -/
  | expectedClose (pos : Nat) (found : Char)
  /-- The bytes of the source are not the UTF-8 form of a text. -/
  | invalidUtf8 (fault : Text.Utf8.Fault)
deriving DecidableEq, Repr

/-- The error in words. -/
def ReadError.message : ReadError → String
  | .unexpectedChar pos found => s!"Unexpected char at {pos}: {Text.quoted found.toString}"
  | .unexpectedEnd => "Unexpected end of input"
  | .unterminatedText => "Unterminated string literal"
  | .unmatchedOpen => "Unmatched '('"
  | .expectedClose pos found => s!"Expected ')' at {pos}, found {Text.quoted found.toString}"
  | .invalidUtf8 fault => s!"Input is not valid UTF-8: {fault.message}"

end MiniLisp
