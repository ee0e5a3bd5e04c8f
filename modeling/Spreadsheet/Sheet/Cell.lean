import Spreadsheet.Evaluation.Error
import Spreadsheet.Formula.Parse

/-!
# Cells

A cell holds a value, a formula or an error. A formula is kept as text and as a tree. Text that
is no formula is stored as an error with the wording of the fault; its text is not kept.
-/

namespace Spreadsheet

/-- What a sheet stores at an address. -/
inductive Cell where
  | literal (v : Value)
  | formula (source : String) (tree : Expr)
  | error (code : ErrorCode) (message : String)

namespace Cell

/-- The cell that holds the formula with this text, or the error that it is none. -/
def ofFormula (source : String) : Cell :=
  match Formula.parse source with
  | .ok tree => formula source tree
  | .error fault => error (Failure.unparsable fault).code (Failure.unparsable fault).message

/-- The tree of a formula. -/
def tree? : Cell → Option Expr
  | formula _ tree => some tree
  | _ => none

/-- The text of a formula. -/
def source? : Cell → Option String
  | formula source _ => some source
  | _ => none

/-- Whether a cell holds a formula. -/
def isFormula (c : Cell) : Bool :=
  c.tree?.isSome

/-- Whether a cell holds an error. -/
def isError : Cell → Bool
  | error _ _ => true
  | _ => false

end Cell

end Spreadsheet
