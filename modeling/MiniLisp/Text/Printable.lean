/-
# Printable characters
-/
import MiniLisp.Text.Printable.Table

namespace MiniLisp.Text

/-- Whether a character is written as it is in an inspected text. -/
def isPrintable (c : Char) : Bool :=
  !unprintableRuns.any fun (first, last) => first ≤ c.toNat && c.toNat ≤ last

end MiniLisp.Text
