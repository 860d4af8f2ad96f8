import MiniLisp.Binary64.Arithmetic
import MiniLisp.Binary64.Basic
import MiniLisp.Binary64.Rounding
import MiniLisp.CommandLine.Argument
import MiniLisp.CommandLine.Basic
import MiniLisp.CommandLine.Help
import MiniLisp.Decimal.Basic
import MiniLisp.Decimal.Layout
import MiniLisp.Decimal.Shortest
import MiniLisp.Eval.Basic
import MiniLisp.Eval.Error
import MiniLisp.Eval.Native
import MiniLisp.Eval.Run
import MiniLisp.Eval.SpecialForm
import MiniLisp.Main
import MiniLisp.Proofs.Binary64.Rounding
import MiniLisp.Proofs.Decimal.Numeral
import MiniLisp.Proofs.Decimal.ReadBack
import MiniLisp.Proofs.Eval.Alteration
import MiniLisp.Proofs.Eval.Closed
import MiniLisp.Proofs.Eval.Footprint
import MiniLisp.Proofs.Eval.Invariant
import MiniLisp.Proofs.Eval.Shape
import MiniLisp.Proofs.Eval.Shift
import MiniLisp.Proofs.Eval.Simulation
import MiniLisp.Proofs.Eval.Substitution
import MiniLisp.Proofs.Reader.Diagnosis
import MiniLisp.Proofs.Reader.Grammar
import MiniLisp.Proofs.Reader.Image
import MiniLisp.Proofs.Reader.Passage
import MiniLisp.Proofs.Reader.Prefix
import MiniLisp.Proofs.Reader.RoundTrip
import MiniLisp.Proofs.Reader.TextBody
import MiniLisp.Proofs.Scope.Correspondence
import MiniLisp.Proofs.Scope.Store
import MiniLisp.Proofs.Session.Irrelevance
import MiniLisp.Proofs.Session.Lexical
import MiniLisp.Proofs.Session.Nesting
import MiniLisp.Proofs.Session.Opacity
import MiniLisp.Proofs.Session.Run
import MiniLisp.Proofs.Text.Span
import MiniLisp.Proofs.Text.Upper
import MiniLisp.Proofs.Value.Occurs
import MiniLisp.Proofs.Value.Relabel
import MiniLisp.Reader.Basic
import MiniLisp.Reader.Command
import MiniLisp.Reader.Cursor
import MiniLisp.Reader.Error
import MiniLisp.Scope.Basic
import MiniLisp.Scope.Builtins
import MiniLisp.Scope.Frame
import MiniLisp.Scope.Inspect
import MiniLisp.Scope.Store
import MiniLisp.Session.Basic
import MiniLisp.Session.Record
import MiniLisp.Settings.Basic
import MiniLisp.Settings.LogLevel
import MiniLisp.Settings.Path
import MiniLisp.Shell.Basic
import MiniLisp.Shell.History
import MiniLisp.Text.Blank
import MiniLisp.Text.Digit
import MiniLisp.Text.Printable
import MiniLisp.Text.Printable.Table
import MiniLisp.Text.Quoted
import MiniLisp.Text.Upper
import MiniLisp.Text.Upper.Table
import MiniLisp.Text.Utf8
import MiniLisp.Value.Basic
import MiniLisp.Value.Display
import MiniLisp.Value.Equality
import MiniLisp.Value.Inspect
import MiniLisp.Proofs.Scope.Lineage
import MiniLisp.Proofs.Scope.Record
import MiniLisp.Proofs.Scope.Workspace
import MiniLisp.Proofs.Scope.History
import MiniLisp.Proofs.Eval.Replay
import MiniLisp.Proofs.Session.Steps
import MiniLisp.Proofs.Eval.Failure
import MiniLisp.Proofs.Value.Proper
import MiniLisp.Proofs.Eval.Proper
import MiniLisp.Proofs.Session.Soundness
import MiniLisp.Proofs.Shell.Levels
import MiniLisp.Proofs.Eval.Depth
import MiniLisp.Proofs.Eval.Context
import MiniLisp.Proofs.Eval.Definitions
import MiniLisp.Proofs.Eval.FirstOrder
import MiniLisp.Proofs.Scope.Parameters
import MiniLisp.Proofs.Binary64.Monotone
import MiniLisp.Proofs.Binary64.Sum
import MiniLisp.Proofs.Eval.Arguments
import MiniLisp.Proofs.Eval.Variadic
import MiniLisp.Proofs.Reader.Fault
import MiniLisp.Proofs.Reader.Position
import MiniLisp.Proofs.Binary64.Spacing
import MiniLisp.Proofs.Decimal.Canonical
import MiniLisp.Proofs.Decimal.Shortest
import MiniLisp.Proofs.Decimal.Notation
import MiniLisp.Proofs.Value.Number
import MiniLisp.Proofs.Binary64.Order
import MiniLisp.Proofs.Eval.Comparison
import MiniLisp.Proofs.Binary64.Nearest
import MiniLisp.Proofs.Reader.Number
import MiniLisp.Proofs.Text.Sequence
import MiniLisp.Proofs.Text.Decode
import MiniLisp.Proofs.Reader.Source
import MiniLisp.Proofs.Eval.Course
import MiniLisp.Proofs.Eval.Explanation
import MiniLisp.Proofs.Shell.Log
import MiniLisp.Proofs.Value.Equality
import MiniLisp.Proofs.Value.Distinct
import MiniLisp.Proofs.Session.Identity
