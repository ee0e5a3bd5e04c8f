import Spreadsheet.Reference.Basic

/-!
# Moving a reference with the formula that holds it

When a formula is copied, its references move by the distance between the two cells on the
axes on which they are relative. Distances are added as 64-bit words, so a sum wraps modulo
`2 ^ 64`; indices are so small against that range that a wrapped sum never lands on the grid.
-/

namespace Spreadsheet

/-- The index `delta` lines further on, if it is one of the first `limit`. A fixed index stays
where it is and is not checked. -/
def offsetIndex (limit index : Nat) (fixed : Bool) (delta : Int) : Option Nat :=
  if fixed then some index
  else
    let moved := Int.bmod (index + delta) UInt64.size
    if 0 ≤ moved ∧ moved < limit then some moved.toNat else none

/-- The reference moved by a number of columns and rows, or nothing if it leaves the grid. -/
def Reference.offset (r : Reference) (cols rows : Int) : Option Reference :=
  match offsetIndex maxCols r.address.col r.colFixed cols,
      offsetIndex maxRows r.address.row r.rowFixed rows with
  | some col, some row => some { r with address := ⟨row, col⟩ }
  | _, _ => none

end Spreadsheet
