import Spreadsheet.Formula.Redirection
import Spreadsheet.Sheet.Basic

/-!
# Inserting and deleting lines of a sheet

The cells behind the line move by one, and the references of every formula are redirected, so
that they keep pointing at the same cells. The extent stays as it is: cells that are pushed past
it, and cells on a deleted line, are dropped.

Every formula is read again from its new text.
-/

namespace Spreadsheet

namespace LineEdit

/-- Where an edit takes a line of its own axis; a deleted line goes nowhere. -/
def moveIndex (e : LineEdit) (index : Nat) : Option Nat :=
  match e.change with
  | .insert => some (if index < e.index then index else index + 1)
  | .delete =>
    if index < e.index then some index
    else if index = e.index then none
    else some (index - 1)

/-- Where an edit takes the cell at an address. -/
def move (e : LineEdit) (a : Address) : Option Address :=
  match e.axis with
  | .row => (e.moveIndex a.row).map fun row => { a with row := row }
  | .col => (e.moveIndex a.col).map fun col => { a with col := col }

end LineEdit

/-- What an edit makes of a cell. -/
def Cell.adjust (e : LineEdit) : Cell → Cell
  | .formula source _ => .ofFormula (Formula.adjust source e)
  | other => other

namespace Sheet

/-- Stores a cell where an edit takes it, if that is inside the extent. -/
def place (e : LineEdit) (s : Sheet) (entry : Address × Cell) : Sheet :=
  match e.move entry.1 with
  | none => s
  | some target =>
    match s.set target (entry.2.adjust e) with
    | .ok s => s
    | .error _ => s

/-- The sheet behind an edit of its lines. -/
def applyLineEdit (s : Sheet) (e : LineEdit) : Sheet :=
  s.entries.foldl (place e) (blank s.id s.name s.rows s.cols)

end Sheet

end Spreadsheet
