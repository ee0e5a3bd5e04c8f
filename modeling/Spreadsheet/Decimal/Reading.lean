/-!
# Numbers from text

The digits of a decimal are read as one whole number and scaled by a power of ten; the double
nearest to that is the result, and of two equally near ones the one with the even mantissa. A
decimal beyond the range of doubles becomes infinite.
-/

namespace Spreadsheet.Decimal

/-- The double nearest to the decimal with the digits `whole`, a point, the digits `fraction`
and the exponent `exponent`. -/
def ofDigits (whole fraction : List Char) (exponent : Int) : Float :=
  let mantissa := Nat.ofDigitChars 10 (whole ++ fraction) 0
  let scale := exponent - fraction.length
  Float.ofScientific mantissa (decide (scale < 0)) scale.natAbs

/-- The exponent behind a decimal: an optional sign and one or more digits, to the end. -/
def exponent? (cs : List Char) : Option Int :=
  let (negative, ds) :=
    match cs with
    | '+' :: rest => (false, rest)
    | '-' :: rest => (true, rest)
    | _ => (false, cs)
  if ds.isEmpty || !ds.all Char.isDigit then none
  else
    let n : Int := Nat.ofDigitChars 10 ds 0
    some (if negative then -n else n)

/-- What follows the digits of a decimal: nothing, or an `e` in either case and an exponent. -/
def scale? : List Char → Option Int
  | [] => some 0
  | c :: cs => if c == 'e' || c == 'E' then exponent? cs else none

/-- An unsigned decimal: digits with an optional point among or around them, at least one digit
in all, and an optional exponent. -/
def unsigned? (cs : List Char) : Option Float :=
  let whole := cs.takeWhile Char.isDigit
  let rest := cs.dropWhile Char.isDigit
  let (fraction, rest) :=
    match rest with
    | '.' :: behind => (behind.takeWhile Char.isDigit, behind.dropWhile Char.isDigit)
    | _ => ([], rest)
  if whole.isEmpty && fraction.isEmpty then none
  else (scale? rest).map (ofDigits whole fraction)

/-- A decimal with an optional sign, as long as a double can hold it. -/
def finite? (cs : List Char) : Option Float :=
  let number :=
    match cs with
    | '+' :: rest => unsigned? rest
    | '-' :: rest => (unsigned? rest).map (- ·)
    | _ => unsigned? cs
  number.filter Float.isFinite

end Spreadsheet.Decimal
