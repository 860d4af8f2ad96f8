/-
# Blank characters

Two sets of blank characters.  The reader of expressions skips four of them; the shell
takes a line for blank if it holds nothing but Unicode white space, which is more.
-/

namespace MiniLisp.Text

/-- The characters that separate expressions: space, tab, carriage return, line feed. -/
def isSeparator (c : Char) : Bool := c = ' ' || c = '\t' || c = '\r' || c = '\n'

/-- The code points of white space, as the first and the last of each run: white space of the
Unicode standard and the four information separators. -/
def blankRuns : List (Nat × Nat) :=
  [(0x09, 0x0D), (0x1C, 0x20), (0x85, 0x85), (0xA0, 0xA0), (0x1680, 0x1680), (0x2000, 0x200A),
    (0x2028, 0x2029), (0x202F, 0x202F), (0x205F, 0x205F), (0x3000, 0x3000)]

/-- Whether a character is white space. -/
def isBlank (c : Char) : Bool :=
  blankRuns.any fun (first, last) => first ≤ c.toNat && c.toNat ≤ last

/-- Whether a line holds white space only. -/
def isBlankLine (line : String) : Bool := line.toList.all isBlank

end MiniLisp.Text
