/-
# Upper case

The upper case of a text is put together character by character: each character is
replaced by its image, which is one character or a few.
-/
import MiniLisp.Text.Upper.Table

namespace MiniLisp.Text

/-- Whether a code point belongs to a run. -/
def CaseRun.contains (run : CaseRun) (point : Nat) : Bool :=
  run.first ≤ point && point ≤ run.last && (point - run.first) % run.stride == 0

/-- The upper case of a character. -/
def upperChar (c : Char) : List Char :=
  match caseRuns.find? (·.contains c.toNat) with
  | some run => [Char.ofNat (c.toNat + run.distance).toNat]
  | none =>
    match caseExpansions.lookup c.toNat with
    | some image => image.map Char.ofNat
    | none => [c]

/-- The upper case of a text. -/
def upper (s : String) : String := String.ofList (s.toList.flatMap upperChar)

end MiniLisp.Text
