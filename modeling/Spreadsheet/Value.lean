import Spreadsheet.Decimal.Layout

/-!
# Values

A value is what a literal cell holds and what a formula results in. Numbers are doubles; two
values are the same value when they agree to the bit, which is not the comparison that formulas
make.
-/

namespace Spreadsheet

/-- A single value. -/
inductive Value where
  | empty
  | boolean (b : Bool)
  | number (n : Float)
  | text (s : String)
deriving DecidableEq

namespace Value

instance : Inhabited Value := ⟨empty⟩

/-- Whether a value is the empty one. An empty text is not. -/
def isEmpty : Value → Bool
  | empty => true
  | _ => false

/-- Whether a value is a text. -/
def isText : Value → Bool
  | text _ => true
  | _ => false

/-- The number that a value is, if it is one. -/
def number? : Value → Option Float
  | number n => some n
  | _ => none

/-- The number that an operand stands for: empty counts as zero. -/
def operand? : Value → Option Float
  | number n => some n
  | empty => some 0
  | _ => none

/-- The type of a value, as messages name it. -/
def typeName : Value → String
  | empty => "empty"
  | boolean _ => "boolean"
  | number _ => "number"
  | text _ => "string"

/-- Whether a condition holds: empty, zero, the empty text and `FALSE` do not. -/
def isTrue : Value → Bool
  | empty => false
  | boolean b => b
  | number n => n != 0
  | text s => s != ""

/-- A boolean as formulas and cells write it. -/
def booleanText (b : Bool) : String :=
  if b then "TRUE" else "FALSE"

/-- A number as a cell shows it: plain text, where zero has no sign. -/
def numberText (n : Float) : String :=
  if n == 0 then "0" else Decimal.plain n

/-- A value as a cell shows it. -/
def display : Value → String
  | empty => ""
  | boolean b => booleanText b
  | number n => numberText n
  | text s => s

end Value

end Spreadsheet
