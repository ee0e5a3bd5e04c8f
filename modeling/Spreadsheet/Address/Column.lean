import Spreadsheet.Grid
import Spreadsheet.Address.Error

/-!
# Columns in letters

Columns are written as numerals with the 26 digits `A` to `Z`, worth 1 to 26, and no zero:
`A` to `Z` are the first 26 columns, `AA` is the next one. Every positive number has exactly
one such numeral. Columns count from zero, so column `col` is written as the numeral of
`col + 1`.
-/

namespace Spreadsheet.Column

/-- The letter that stands for the digit `n + 1`, for `n < 26`. -/
def letter (n : Nat) : Char :=
  Char.ofNat (65 + n)

/-- The numeral of a number; zero is the empty word. -/
def numeral : Nat → List Char
  | 0 => []
  | n + 1 => numeral (n / 26) ++ [letter (n % 26)]
decreasing_by exact Nat.lt_succ_of_le (Nat.div_le_self n 26)

/-- The letters of a column. -/
def letters (col : Nat) : List Char :=
  numeral (col + 1)

/-- What a letter is worth as a digit, in either case. -/
def digit (c : Char) : Nat :=
  c.toUpper.toNat - 64

/-- Reads the digits `cs` behind the ones worth `sum`. The value is checked against the grid
after every letter, so that it never grows beyond the grid by more than one digit. -/
def read (whole : List Char) (sum : Nat) : List Char → Except AddressError Nat
  | [] => .ok sum
  | c :: cs =>
    if c.isAlpha then
      let next := sum * 26 + digit c
      if next ≤ maxCols then read whole next cs
      else .error (.malformed (.columnPastGrid (String.ofList whole)))
    else .error (.malformed (.badColumnLetter c))

/-- The column that letters name, in either case. -/
def ofLetters (cs : List Char) : Except AddressError Nat :=
  if cs.isEmpty then .error (.malformed .emptyColumn)
  else (read cs 0 cs).map (· - 1)

end Spreadsheet.Column
