/-!
# The grid

Every sheet is a corner of one fixed grid. A place on it is given by two indices counted
from zero, one along each axis; only text counts rows from one and writes columns in letters.
The limits are those of the grid, not of a sheet: a sheet has an extent of its own inside it.
-/

namespace Spreadsheet

/-- The two directions in which the grid is cut into lines. -/
inductive Axis where
  | row
  | col
deriving DecidableEq, Repr

/-- The number of rows of the grid. -/
def maxRows : Nat := 1048576

/-- The number of columns of the grid; the last one is written `XFD`. -/
def maxCols : Nat := 16384

/-- The number of lines along an axis. -/
def Axis.limit : Axis → Nat
  | .row => maxRows
  | .col => maxCols

@[simp] theorem Axis.limit_row : Axis.row.limit = maxRows := rfl

@[simp] theorem Axis.limit_col : Axis.col.limit = maxCols := rfl

end Spreadsheet
