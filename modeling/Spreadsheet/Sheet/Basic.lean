import Spreadsheet.Formula.Reads
import Spreadsheet.Sheet.Cell

/-!
# Sheets

A sheet is a named rectangle of the grid whose top left corner is `A1`. It stores cells at some
of its addresses; every other address is empty. Its extent is chosen once, brought into the
limits of the grid, and never changes.
-/

namespace Spreadsheet

/-- The number of rows of a sheet that is given no other. -/
def defaultRows : Nat := 1000

/-- The number of columns of a sheet that is given no other, `A` to `Z`. -/
def defaultCols : Nat := 26

/-- A sheet: its extent and the cells stored inside it. -/
structure Sheet where
  id : String
  name : String
  rows : Nat
  cols : Nat
  cells : AddressMap Cell

namespace Sheet

/-- An empty sheet; the extent is at least one cell and at most the grid. -/
def blank (id name : String) (rows cols : Nat) : Sheet where
  id := id
  name := name
  rows := min (max rows 1) maxRows
  cols := min (max cols 1) maxCols
  cells := ∅

/-- Every address of a sheet. -/
def extent (s : Sheet) : Range :=
  Range.spanning ⟨0, 0⟩ ⟨s.rows - 1, s.cols - 1⟩

/-- Whether an address lies inside the extent. -/
def contains (s : Sheet) (a : Address) : Bool :=
  a.row < s.rows && a.col < s.cols

/-- Fails unless an address lies inside the extent. The row is checked first. -/
def checkBounds (s : Sheet) (a : Address) : Except AddressError Unit :=
  if s.rows ≤ a.row then .error (.rowOutOfBounds a.row (s.rows - 1))
  else if s.cols ≤ a.col then .error (.colOutOfBounds a.col (s.cols - 1))
  else .ok ()

/-- The cell stored at an address. -/
def get (s : Sheet) (a : Address) : Option Cell :=
  s.cells[a]?

/-- The sheet with a cell stored at an address, if the address lies inside the extent. -/
def set (s : Sheet) (a : Address) (c : Cell) : Except AddressError Sheet :=
  match s.checkBounds a with
  | .error e => .error e
  | .ok () => .ok { s with cells := s.cells.insert a c }

/-- The sheet with nothing stored at an address. -/
def remove (s : Sheet) (a : Address) : Sheet :=
  { s with cells := s.cells.erase a }

/-- The stored cells with their addresses, row by row. -/
def entries (s : Sheet) : List (Address × Cell) :=
  s.cells.toList

/-- The number of stored cells. -/
def size (s : Sheet) : Nat :=
  s.cells.size

/-- Whether nothing is stored. -/
def isEmpty (s : Sheet) : Bool :=
  s.cells.isEmpty

/-- The tree of the formula at an address, if there is a formula. -/
def treeAt (s : Sheet) (a : Address) : Option Expr :=
  (s.get a).bind Cell.tree?

/-- The addresses of the formulas, row by row. -/
def formulas (s : Sheet) : List Address :=
  (s.entries.filter fun entry => entry.2.isFormula).map Prod.fst

/-- The addresses inside the extent that the formula at an address reads; none if there is no
formula. -/
def readsOf (s : Sheet) (a : Address) : List Address :=
  match s.treeAt a with
  | some tree => tree.readsWithin s.extent
  | none => []

end Sheet

end Spreadsheet
