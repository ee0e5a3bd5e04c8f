import Spreadsheet.Decimal.Shortest

/-!
# Numbers as text

Both ways of writing a number show the digits of its shortest decimal. They differ in where the
point goes, and in which of two equally near decimals they take.

*Plain* text never has an exponent and has no point if nothing follows it. It is what formulas
and messages show. *Report* text always shows that the number is no integer type: it has a
point or an exponent. It is positional from `0.00001` up to, but without, `10 ^ 16`.
-/

namespace Spreadsheet.Decimal

/-- The digits of a natural number. -/
def digitChars (n : Nat) : List Char :=
  Nat.toDigits 10 n

/-- Digits with a point behind the first `whole` of them; zeros stand in for digits that are
not there. If nothing follows the point, `bare` is all that is written after the digits. -/
def positional (ds : List Char) (whole : Int) (bare : List Char) : List Char :=
  if whole ≤ 0 then '0' :: '.' :: (List.replicate (-whole).toNat '0' ++ ds)
  else if ds.length ≤ whole.toNat then
    ds ++ List.replicate (whole.toNat - ds.length) '0' ++ bare
  else ds.take whole.toNat ++ '.' :: ds.drop whole.toNat

/-- Digits with a point behind the first one, and the exponent that goes with them. -/
def scientific (ds : List Char) (exponent : Int) : List Char :=
  let mantissa :=
    match ds with
    | d :: e :: rest => d :: '.' :: e :: rest
    | _ => ds
  let sign := if exponent < 0 then '-' else '+'
  mantissa ++ 'e' :: sign :: digitChars exponent.natAbs

/-- A minus sign in front, for numbers with the sign bit. -/
def signed (x : Float) (cs : List Char) : List Char :=
  if Nat.pow 2 63 ≤ x.toBits.toNat then '-' :: cs else cs

/-- The magnitude in plain text. -/
def plainMagnitude (x : Float) : List Char :=
  if x == 0 then ['0']
  else
    let d := shortest x .up
    let ds := digitChars d.digits
    positional ds (ds.length + d.exponent) []

/-- A number in plain text. -/
def plain (x : Float) : String :=
  if x.isNaN then "NaN"
  else if x.isInf then String.ofList (signed x "inf".toList)
  else String.ofList (signed x (plainMagnitude x))

/-- The magnitude in report text. -/
def reportMagnitude (x : Float) : List Char :=
  if x == 0 then ['0', '.', '0']
  else
    let d := shortest x .even
    let ds := digitChars d.digits
    let whole : Int := ds.length + d.exponent
    if -5 < whole ∧ whole ≤ 16 then positional ds whole ['.', '0'] else scientific ds (whole - 1)

/-- A finite number in report text. -/
def report (x : Float) : String :=
  String.ofList (signed x (reportMagnitude x))

end Spreadsheet.Decimal
