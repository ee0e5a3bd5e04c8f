import Spreadsheet.Formula.Operator
import Spreadsheet.Range.Basic

/-!
# Formulas as trees

A formula is kept as a tree next to its text. The tree does not remember blanks, parentheses or
the case of letters. A range keeps its two ends in the order in which they were written, because
each of them moves as a reference of its own; the rectangle that it covers is derived from them.
-/

namespace Spreadsheet

/-- A formula. -/
inductive Expr where
  | number (n : Float)
  | text (s : String)
  | boolean (b : Bool)
  | cell (r : Reference)
  | range (first second : Reference)
  /-- A reference that no longer points anywhere. -/
  | lost
  | binary (op : BinaryOp) (left right : Expr)
  | negate (operand : Expr)
  | call (name : String) (args : List Expr)

/-- The rectangle between the two ends of a range. -/
def Reference.rectangle (first second : Reference) : Range :=
  Range.spanning first.address second.address

end Spreadsheet
