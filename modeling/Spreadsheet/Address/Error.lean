/-!
# What can be wrong with an address

Each way in which text fails to name a place of the grid, or a place fails to lie on a sheet,
is a cause of its own; the wording is settled in one function. A row number that is too large
for the grid is not malformed but out of bounds, and says by how much.
-/

namespace Spreadsheet

/-- Why a text is not of the form of an address. -/
inductive Malformation where
  /-- Nothing is left of the text once it is trimmed. -/
  | emptyText
  /-- A column is to be read from no letters at all. -/
  | emptyColumn
  /-- A character of a column that is no letter. -/
  | badColumnLetter (c : Char)
  /-- The letters name a column behind the last one of the grid. -/
  | columnPastGrid (letters : String)
  /-- No letters where the column should be. -/
  | noColumn (text : String)
  /-- Nothing behind the column. -/
  | noRow (text : String)
  /-- What follows the column is no row number, or one of more than 32 bits. -/
  | badRow (text : String)
  /-- Rows count from one. -/
  | rowZero (text : String)
deriving DecidableEq, Repr

/-- The wording of a malformation. -/
def Malformation.message : Malformation → String
  | emptyText => "empty address"
  | emptyColumn => "empty column letters"
  | badColumnLetter c => "invalid column letter '" ++ c.toString ++ "'"
  | columnPastGrid letters => "column '" ++ letters ++ "' out of range"
  | noColumn text => "no column letters in '" ++ text ++ "'"
  | noRow text => "no row number in '" ++ text ++ "'"
  | badRow text => "invalid row number in '" ++ text ++ "'"
  | rowZero text => "row number must be >= 1 in '" ++ text ++ "'"

/-- Why a text names no place, or a place is not where it should be. -/
inductive AddressError where
  /-- The text is not of the form of an address. -/
  | malformed (fault : Malformation)
  /-- A corner of the range `text` cannot be read. -/
  | corner (text : String) (cause : AddressError)
  /-- The row index lies behind `max`. -/
  | rowOutOfBounds (row max : Nat)
  /-- The column index lies behind `max`. -/
  | colOutOfBounds (col max : Nat)
deriving DecidableEq, Repr

/-- The wording of an error. -/
def AddressError.message : AddressError → String
  | malformed fault => "Invalid cell address: " ++ fault.message
  | corner text cause => "Invalid cell range: '" ++ text ++ "': " ++ cause.message
  | rowOutOfBounds row max =>
    "Row index " ++ toString row ++ " out of bounds (max: " ++ toString max ++ ")"
  | colOutOfBounds col max =>
    "Column index " ++ toString col ++ " out of bounds (max: " ++ toString max ++ ")"

end Spreadsheet
