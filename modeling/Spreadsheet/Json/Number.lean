/-!
# Numbers of a JSON document

A number is kept as it is written, because what it is good for depends on who asks: a count must
be written without a point and without an exponent, a cell takes any number that a double can
hold.

A double is read from a number in one step of floating point arithmetic, not by rounding the
exact decimal. The leading digits that fit 64 bits are taken as a whole number, and that is
multiplied with or divided by a power of ten. The result may be off in its last bit.
-/

namespace Spreadsheet.Json

/-- A number as it is written. -/
structure Numeral where
  negative : Bool
  /-- The digits in front of the point. -/
  whole : List Char
  /-- The digits behind the point, if there is one. -/
  fraction : Option (List Char)
  /-- The exponent, if there is one. -/
  exponent : Option Int
deriving DecidableEq, Repr

namespace Numeral

/-- The largest number of 64 bits. -/
def maxWord : Nat := 18446744073709551615

/-- The largest number of 32 bits. -/
def maxCount : Nat := 4294967295

/-- Takes digits behind the number `sum` as long as it stays within 64 bits. The digits that do
not fit are left. -/
def gather (sum : Nat) : List Char → Nat × List Char
  | [] => (sum, [])
  | c :: cs =>
    let next := sum * 10 + (c.toNat - '0'.toNat)
    if maxWord < next then (sum, c :: cs) else gather next cs

/-- The number scaled by a power of ten, if a double can hold it. A divisor that no double can
hold is divided by in two steps. -/
def scale (n : Float) (power : Int) : Option Float :=
  if n == 0 then some n
  else if 308 < power then none
  else if 0 ≤ power then
    let scaled := n * Float.ofScientific 1 false power.toNat
    if scaled.isInf then none else some scaled
  else if -308 ≤ power then some (n / Float.ofScientific 1 false (-power).toNat)
  else if -616 ≤ power then
    some (n / Float.ofScientific 1 false 308 / Float.ofScientific 1 false (-power - 308).toNat)
  else some 0

/-- The magnitude of a numeral, if a double can hold it. -/
def magnitude? (n : Numeral) : Option Float :=
  let (sum, skipped) := gather 0 n.whole
  let digits := n.fraction.getD []
  let (sum, left) := gather sum digits
  let power : Int := skipped.length - (digits.length - left.length : Nat) + n.exponent.getD 0
  scale (Float.ofNat sum) power

/-- The double that a numeral stands for, if there is one. -/
def toFloat? (n : Numeral) : Option Float :=
  n.magnitude?.map fun m => if n.negative then -m else m

/-- The count that a numeral stands for, if it is written as one and fits 32 bits. -/
def toCount? (n : Numeral) : Option Nat :=
  let count := Nat.ofDigitChars 10 n.whole 0
  if n.negative || n.fraction.isSome || n.exponent.isSome || maxCount < count then none
  else some count

end Numeral

end Spreadsheet.Json
