import Spreadsheet.Grid
import Spreadsheet.Text.Blank
import Spreadsheet.Address.Error
import Spreadsheet.Address.Column
import Spreadsheet.Address.Basic
import Spreadsheet.Reference.Spelling
import Spreadsheet.Reference.Basic
import Spreadsheet.Reference.Offset
import Spreadsheet.Reference.LineEdit
import Spreadsheet.Range.Basic
import Spreadsheet.Range.Cursor
import Spreadsheet.Decimal.Shortest
import Spreadsheet.Decimal.Layout
import Spreadsheet.Decimal.Reading
import Spreadsheet.ErrorCode
import Spreadsheet.Value
import Spreadsheet.Formula.Operator
import Spreadsheet.Formula.Expr
import Spreadsheet.Formula.Token
import Spreadsheet.Formula.Scan
import Spreadsheet.Formula.Fault
import Spreadsheet.Formula.Parse
import Spreadsheet.Formula.Reads
import Spreadsheet.Formula.Redirection
import Spreadsheet.Formula.Function
import Spreadsheet.Evaluation.Error
import Spreadsheet.Evaluation.Operand
import Spreadsheet.Evaluation.Expr
import Spreadsheet.Sheet.Cell
import Spreadsheet.Sheet.Basic
import Spreadsheet.Sheet.Edit
import Spreadsheet.Sheet.LineEdit
import Spreadsheet.Dependency.Graph
import Spreadsheet.Dependency.Cycle
import Spreadsheet.Dependency.Order
import Spreadsheet.Evaluation.Cell
import Spreadsheet.Evaluation.Evaluator
import Spreadsheet.Evaluation.Calculation
import Spreadsheet.Json.Number
import Spreadsheet.Json.Basic
import Spreadsheet.SheetFile.Basic
import Spreadsheet.SheetFile.Report
import Spreadsheet.Command.Basic
import Spreadsheet.Command.Request
import Spreadsheet.Main
import Spreadsheet.Proofs.Address.Column
import Spreadsheet.Proofs.Decimal.Negation
import Spreadsheet.Proofs.Dependency.Closing
import Spreadsheet.Proofs.Dependency.Edges
import Spreadsheet.Proofs.Dependency.Inverse
import Spreadsheet.Proofs.Dependency.Ordering
import Spreadsheet.Proofs.Dependency.Precedents
import Spreadsheet.Proofs.Evaluation.Aggregates
import Spreadsheet.Proofs.Evaluation.Agreement
import Spreadsheet.Proofs.Evaluation.Alike
import Spreadsheet.Proofs.Evaluation.Branches
import Spreadsheet.Proofs.Evaluation.Circles
import Spreadsheet.Proofs.Evaluation.CutShort
import Spreadsheet.Proofs.Evaluation.Finite
import Spreadsheet.Proofs.Evaluation.Locality
import Spreadsheet.Proofs.Evaluation.Moved
import Spreadsheet.Proofs.Evaluation.Origin
import Spreadsheet.Proofs.Evaluation.Relay
import Spreadsheet.Proofs.Evaluation.Ring
import Spreadsheet.Proofs.Evaluation.Solution
import Spreadsheet.Proofs.Evaluation.Statistics
import Spreadsheet.Proofs.Evaluation.Strictness
import Spreadsheet.Proofs.Evaluation.Tolerance
import Spreadsheet.Proofs.Evaluation.Unfolding
import Spreadsheet.Proofs.Evaluation.Upkeep
import Spreadsheet.Proofs.Formula.Advancing
import Spreadsheet.Proofs.Formula.Blanks
import Spreadsheet.Proofs.Formula.Climbing
import Spreadsheet.Proofs.Formula.Clipping
import Spreadsheet.Proofs.Formula.Commuting
import Spreadsheet.Proofs.Formula.Copying
import Spreadsheet.Proofs.Formula.Derivation
import Spreadsheet.Proofs.Formula.Grammar
import Spreadsheet.Proofs.Formula.Grouping
import Spreadsheet.Proofs.Formula.Leaves
import Spreadsheet.Proofs.Formula.Lexeme
import Spreadsheet.Proofs.Formula.Matching
import Spreadsheet.Proofs.Formula.Mentions
import Spreadsheet.Proofs.Formula.Pieces
import Spreadsheet.Proofs.Formula.Redirecting
import Spreadsheet.Proofs.Formula.Relative
import Spreadsheet.Proofs.Formula.Respelled
import Spreadsheet.Proofs.Formula.Scanning
import Spreadsheet.Proofs.Formula.Spacing
import Spreadsheet.Proofs.Formula.Stepwise
import Spreadsheet.Proofs.Formula.Substitution
import Spreadsheet.Proofs.Formula.Targets
import Spreadsheet.Proofs.Formula.Tearing
import Spreadsheet.Proofs.Formula.Trace
import Spreadsheet.Proofs.Formula.Written
import Spreadsheet.Proofs.Range.Reading
import Spreadsheet.Proofs.Range.Walking
import Spreadsheet.Proofs.Reference.Distances
import Spreadsheet.Proofs.Reference.Ends
import Spreadsheet.Proofs.Reference.Following
import Spreadsheet.Proofs.Reference.Level
import Spreadsheet.Proofs.Reference.OneAxis
import Spreadsheet.Proofs.Reference.Parts
import Spreadsheet.Proofs.Reference.RoundTrip
import Spreadsheet.Proofs.Sheet.Batches
import Spreadsheet.Proofs.Sheet.Commuting
import Spreadsheet.Proofs.Sheet.Fitting
import Spreadsheet.Proofs.Sheet.Landing
import Spreadsheet.Proofs.Sheet.Moving
import Spreadsheet.Proofs.Sheet.Redirected
import Spreadsheet.Proofs.Sheet.Restored
import Spreadsheet.Proofs.Sheet.Runs
import Spreadsheet.Proofs.Sheet.Survival
import Spreadsheet.Proofs.SheetFile.Cells
import Spreadsheet.Proofs.SheetFile.Reporting
import Spreadsheet.Proofs.Text.Classes
import Spreadsheet.Proofs.Text.Pattern
