import Spreadsheet.Reference.Basic

/-!
# Ranges

A range is a rectangle of the grid. It is kept by its top left and bottom right corners,
whichever two opposite corners it was built from, so two ranges with the same cells are equal.
Its cells are listed row by row.
-/

namespace Spreadsheet

/-- The rectangle between a top left and a bottom right corner, both included. -/
structure Range where
  first : Address
  last : Address
  row_le : first.row ≤ last.row
  col_le : first.col ≤ last.col
deriving DecidableEq

namespace Range

/-- The rectangle spanned by two opposite corners. -/
def spanning (a b : Address) : Range where
  first := ⟨min a.row b.row, min a.col b.col⟩
  last := ⟨max a.row b.row, max a.col b.col⟩
  row_le := by simp only; omega
  col_le := by simp only; omega

/-- The range of one cell. -/
def single (a : Address) : Range where
  first := a
  last := a
  row_le := Nat.le_refl _
  col_le := Nat.le_refl _

/-- Whether a range covers an address. -/
def contains (r : Range) (a : Address) : Bool :=
  r.first.row ≤ a.row && a.row ≤ r.last.row && r.first.col ≤ a.col && a.col ≤ r.last.col

/-- The rectangle that two ranges share, if they share any cell. -/
def intersection (r s : Range) : Option Range :=
  let first : Address := ⟨max r.first.row s.first.row, max r.first.col s.first.col⟩
  let last : Address := ⟨min r.last.row s.last.row, min r.last.col s.last.col⟩
  if h : first.row ≤ last.row ∧ first.col ≤ last.col then some ⟨first, last, h.1, h.2⟩ else none

/-- The number of rows of a range. -/
def rowCount (r : Range) : Nat :=
  r.last.row - r.first.row + 1

/-- The number of columns of a range. -/
def colCount (r : Range) : Nat :=
  r.last.col - r.first.col + 1

/-- The number of cells of a range. -/
def cellCount (r : Range) : Nat :=
  r.rowCount * r.colCount

/-- The cells of a range, row by row. -/
def cells (r : Range) : List Address :=
  (List.range' r.first.row r.rowCount).flatMap fun row =>
    (List.range' r.first.col r.colCount).map fun col => ⟨row, col⟩

/-- The written form: the two corners, or the only cell. -/
def text (r : Range) : String :=
  if r.first = r.last then r.first.text else r.first.text ++ ":" ++ r.last.text

instance : ToString Range := ⟨text⟩

/-- Reads one corner of the range `whole`. -/
def corner (whole cs : List Char) : Except AddressError Address :=
  (Address.ofChars cs).mapError (.corner (String.ofList whole))

/-- Reads a range from text without blanks around it: two corners with a colon between them,
or one address. -/
def readTrimmed (cs : List Char) : Except AddressError Range :=
  match cs.dropWhile (· != ':') with
  | [] => (Address.ofChars cs).map single
  | _ :: second =>
    match corner cs (cs.takeWhile (· != ':')), corner cs second with
    | .error e, _ => .error e
    | .ok _, .error e => .error e
    | .ok a, .ok b => .ok (spanning a b)

/-- Reads a range; blanks around it and around its corners are dropped. -/
def ofText (text : String) : Except AddressError Range :=
  readTrimmed (Text.trim text.toList)

end Range

end Spreadsheet
