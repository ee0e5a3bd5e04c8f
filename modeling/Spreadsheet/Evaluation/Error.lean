import Spreadsheet.Formula.Fault
import Spreadsheet.Formula.Operator
import Spreadsheet.Range.Basic
import Spreadsheet.Value

/-!
# Failures

A formula that cannot be read or evaluated fails with a cause. Every cause has a wording and one
of the five codes; a cell that fails because it reads a failing cell passes that cell's code on.
-/

namespace Spreadsheet

/-- A reference that cannot be followed. -/
inductive ReferenceFault where
  /-- The cell lies outside the extent of the sheet. -/
  | outside (a : Address)
  /-- Part of the range lies outside the extent of the sheet. -/
  | reachesOutside (r : Range)
  /-- The reference was lost when its cell was deleted or pushed off the grid. -/
  | lost
deriving DecidableEq

/-- The wording of such a reference. -/
def ReferenceFault.message : ReferenceFault → String
  | outside a => a.text ++ " is outside the sheet"
  | reachesOutside r => r.text ++ " reaches outside the sheet"
  | lost => "reference no longer points at a cell"

/-- Values that cannot be combined. -/
inductive ValueFault where
  /-- A range of so many cells where a single value is needed. -/
  | rangeAsValue (cells : Nat)
  /-- A chain of more references than are followed. -/
  | tooDeep (limit : Nat)
  /-- An operator that is not defined for these operands. -/
  | inapplicable (op : BinaryOp) (left right : Value)
  /-- A value that has no negative. -/
  | notNegatable (v : Value)
  /-- An operator whose result no number can hold. -/
  | infiniteResult (op : BinaryOp) (left right : Float)
  /-- An aggregate that no number can hold. -/
  | infiniteAggregate (n : Float)
deriving DecidableEq

/-- The wording of such values. -/
def ValueFault.message : ValueFault → String
  | rangeAsValue cells =>
    "A range of " ++ toString cells ++ " cells cannot be used as a single value"
  | tooDeep limit => "More than " ++ toString limit ++ " nested cell references"
  | inapplicable op left right =>
    "Cannot apply '" ++ op.symbol ++ "' to " ++ left.typeName ++ " and " ++ right.typeName
  | notNegatable v => "Cannot negate " ++ v.typeName
  | infiniteResult op left right =>
    Decimal.plain left ++ " " ++ op.symbol ++ " " ++ Decimal.plain right ++
      " is not a finite number"
  | infiniteAggregate n => Decimal.plain n ++ " is not a finite number"

/-- How many arguments a function takes, as far as a call got it wrong. -/
inductive Arity where
  | exactly (n : Nat)
  | atMost (n : Nat)
  | atLeast (n : Nat)
deriving DecidableEq, Repr

/-- The wording of an arity. -/
def Arity.message : Arity → String
  | exactly n => "exactly " ++ toString n
  | atMost n => "at most " ++ toString n
  | atLeast n => "at least " ++ toString n

/-- Why a formula has no value. -/
inductive Failure where
  /-- The text is no formula. -/
  | unparsable (fault : ParseFault)
  /-- The chain of references comes back to this cell. -/
  | circular (a : Address)
  | divisionByZero
  | invalidReference (fault : ReferenceFault)
  /-- A cell that is read fails itself. -/
  | referenced (a : Address) (code : ErrorCode) (message : String)
  | invalidValue (fault : ValueFault)
  | unknownFunction (name : String)
  | argumentCount (function : String) (expected : Arity) (actual : Nat)
deriving DecidableEq

namespace Failure

/-- The code that a failure is reported as. -/
def code : Failure → ErrorCode
  | unparsable _ => .parse
  | circular _ => .cycle
  | divisionByZero => .div0
  | invalidReference _ => .ref
  | referenced _ code _ => code
  | invalidValue _ => .eval
  | unknownFunction _ => .eval
  | argumentCount _ _ _ => .eval

/-- The wording of a failure. -/
def message : Failure → String
  | unparsable fault => "Parse error: " ++ fault.message ++ " (at " ++ fault.token ++ ")"
  | circular a => "Circular reference detected at " ++ a.text
  | divisionByZero => "Division by zero"
  | invalidReference fault => "Invalid reference: " ++ fault.message
  | referenced a code message =>
    "Cell " ++ a.text ++ " has error " ++ code.token ++ ": " ++ message
  | invalidValue fault => "Evaluation error: " ++ fault.message
  | unknownFunction name => "Unknown function: " ++ name
  | argumentCount function expected actual =>
    "Wrong number of arguments for " ++ function ++ ": expected " ++ expected.message ++
      ", got " ++ toString actual

end Failure

end Spreadsheet
