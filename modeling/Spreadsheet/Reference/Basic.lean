import Spreadsheet.Address.Basic
import Spreadsheet.Reference.Spelling
import Spreadsheet.Text.Blank

/-!
# References

A reference is an address as a formula writes it. A dollar sign in front of the column or of
the row fixes that axis: a fixed axis keeps its index when the formula is copied and when
lines are inserted or deleted, a relative one moves.

The written form is one or more letters and one or more digits, each with an optional dollar
sign in front. Case does not matter, nor do zeros in front of the row or blanks around it all;
written back, a reference has upper case and neither of the others.
-/

namespace Spreadsheet

/-- An address together with the axes on which it is fixed. -/
structure Reference where
  address : Address
  colFixed : Bool := false
  rowFixed : Bool := false
deriving DecidableEq, Repr

namespace Reference

/-- The index of a reference along an axis. -/
def along (r : Reference) (axis : Axis) : Nat :=
  r.address.along axis

/-- Whether a reference is fixed on an axis. -/
def fixedOn (r : Reference) : Axis → Bool
  | .row => r.rowFixed
  | .col => r.colFixed

/-- Whether a reference is fixed on both axes. -/
def fullyFixed (r : Reference) : Bool :=
  r.colFixed && r.rowFixed

/-- A reference fixed on both axes. -/
def pinned (a : Address) : Reference :=
  ⟨a, true, true⟩

@[simp] theorem fixedOn_row (r : Reference) : r.fixedOn .row = r.rowFixed := rfl

@[simp] theorem fixedOn_col (r : Reference) : r.fixedOn .col = r.colFixed := rfl

/-! ### Writing -/

/-- The parts of the written form. -/
def spelling (r : Reference) : Spelling where
  colFixed := r.colFixed
  letters := Column.letters r.address.col
  rowFixed := r.rowFixed
  digits := Nat.toDigits 10 (r.address.row + 1)

/-- The written form, character by character. -/
def chars (r : Reference) : List Char :=
  r.spelling.chars

/-- The written form. -/
def text (r : Reference) : String :=
  String.ofList r.chars

instance : ToString Reference := ⟨text⟩

/-! ### Reading -/

/-- The largest row number that is read as a number at all. -/
def maxRowNumber : Nat := 4294967295

/-- The row index that the digits `cs` at the end of `whole` name. -/
def readRow (whole cs : List Char) : Except AddressError Nat :=
  let fault (f : String → Malformation) := Except.error (.malformed (f (String.ofList whole)))
  if cs.isEmpty then fault .noRow
  else if !cs.all Char.isDigit then fault .badRow
  else
    match Nat.ofDigitChars 10 cs 0 with
    | 0 => fault .rowZero
    | row + 1 =>
      if maxRowNumber ≤ row then fault .badRow
      else if maxRows ≤ row then .error (.rowOutOfBounds row (maxRows - 1))
      else .ok row

/-- Reads a reference from text without blanks around it. -/
def readTrimmed (cs : List Char) : Except AddressError Reference :=
  if cs.isEmpty then .error (.malformed .emptyText)
  else
    let (parts, rest) := Spelling.split cs
    if parts.letters.isEmpty then .error (.malformed (.noColumn (String.ofList cs)))
    else
      match Column.ofLetters parts.letters with
      | .error fault => .error fault
      | .ok col =>
        match readRow cs (parts.digits ++ rest) with
        | .error fault => .error fault
        | .ok row => .ok ⟨⟨row, col⟩, parts.colFixed, parts.rowFixed⟩

/-- Reads a reference; blanks around it are dropped. -/
def ofChars (cs : List Char) : Except AddressError Reference :=
  readTrimmed (Text.trim cs)

/-- Reads a reference; blanks around it are dropped. -/
def ofText (text : String) : Except AddressError Reference :=
  ofChars text.toList

end Reference

/-- Reads an address. Dollar signs are accepted and have no effect. -/
def Address.ofText (text : String) : Except AddressError Address :=
  (Reference.ofText text).map (·.address)

/-- Reads an address. Dollar signs are accepted and have no effect. -/
def Address.ofChars (cs : List Char) : Except AddressError Address :=
  (Reference.ofChars cs).map (·.address)

end Spreadsheet
