import Spreadsheet.Json.Number

/-!
# JSON documents

A document is read into a tree by its grammar alone. Two things in it may be beyond use without
the document being wrong: a number that no double can hold, and a text whose escapes name half
of a surrogate pair. They matter only where such a number or text is asked for.

Reading yields nothing if there is any fault, wherever it is.
-/

namespace Spreadsheet

/-- A JSON document. -/
inductive Json where
  | null
  | boolean (b : Bool)
  | number (n : Json.Numeral)
  /-- A text; nothing if its escapes do not spell one. -/
  | text (s : Option String)
  | array (items : List Json)
  /-- The members of an object, in order and with repetitions. -/
  | object (members : List (Option String × Json))

namespace Json

/-- A character that may stand between the parts of a document. -/
def isSpace (c : Char) : Bool :=
  c == ' ' || c == '\t' || c == '\n' || c == '\r'

/-- Skips what may stand between parts. -/
def skip (cs : List Char) : List Char :=
  cs.dropWhile isSpace

/-! ### Texts -/

/-- The value of a hexadecimal digit, in either case. -/
def hexValue? (c : Char) : Option Nat :=
  let n := c.toNat
  if '0'.toNat ≤ n && n ≤ '9'.toNat then some (n - '0'.toNat)
  else if 'a'.toNat ≤ n && n ≤ 'f'.toNat then some (n - 'a'.toNat + 10)
  else if 'A'.toNat ≤ n && n ≤ 'F'.toNat then some (n - 'A'.toNat + 10)
  else none

/-- The number that four hexadecimal digits spell. -/
def hexUnit? (a b c d : Char) : Option Nat := do
  let a ← hexValue? a
  let b ← hexValue? b
  let c ← hexValue? c
  let d ← hexValue? d
  return ((a * 16 + b) * 16 + c) * 16 + d

/-- The character that a one-letter escape stands for. -/
def escaped? : Char → Option Char
  | '"' => some '"'
  | '\\' => some '\\'
  | '/' => some '/'
  | 'b' => some '\x08'
  | 'f' => some '\x0c'
  | 'n' => some '\n'
  | 'r' => some '\r'
  | 't' => some '\t'
  | _ => none

/-- The code points of a text behind its opening quote, with the halves of surrogate pairs as
they are, and what follows the closing quote. -/
def readUnits : List Char → Option (List Nat × List Char)
  | [] => none
  | '"' :: cs => some ([], cs)
  | '\\' :: 'u' :: a :: b :: c :: d :: cs => do
    let unit ← hexUnit? a b c d
    let (units, rest) ← readUnits cs
    return (unit :: units, rest)
  | '\\' :: e :: cs => do
    let c ← escaped? e
    let (units, rest) ← readUnits cs
    return (c.toNat :: units, rest)
  | c :: cs =>
    if c.toNat < 32 || c == '\\' then none
    else do
      let (units, rest) ← readUnits cs
      return (c.toNat :: units, rest)

/-- The first half of a surrogate pair. -/
def isHigh (unit : Nat) : Bool :=
  0xD800 ≤ unit && unit < 0xDC00

/-- The second half of a surrogate pair. -/
def isLow (unit : Nat) : Bool :=
  0xDC00 ≤ unit && unit < 0xE000

/-- The characters that code points spell, if every half of a pair has its other half. -/
def joinUnits : List Nat → Option (List Char)
  | [] => some []
  | high :: low :: units =>
    if isHigh high && isLow low then
      (joinUnits units).map (Char.ofNat (0x10000 + (high - 0xD800) * 0x400 + (low - 0xDC00)) :: ·)
    else if isHigh high || isLow high then none
    else (joinUnits (low :: units)).map (Char.ofNat high :: ·)
  | [unit] => if isHigh unit || isLow unit then none else some [Char.ofNat unit]

/-- A text behind its opening quote, and what follows it. -/
def readText (cs : List Char) : Option (Option String × List Char) := do
  let (units, rest) ← readUnits cs
  return ((joinUnits units).map String.ofList, rest)

/-! ### Numbers -/

/-- One or more digits, and what follows them. -/
def readDigits (cs : List Char) : Option (List Char × List Char) :=
  match cs.takeWhile Char.isDigit with
  | [] => none
  | ds => some (ds, cs.dropWhile Char.isDigit)

/-- The digits in front of the point: a zero, or digits that do not begin with one. -/
def readWhole (cs : List Char) : Option (List Char × List Char) := do
  let (ds, rest) ← readDigits cs
  match ds with
  | '0' :: _ :: _ => none
  | _ => return (ds, rest)

/-- The digits behind the point, if there is one. -/
def readFraction : List Char → Option (Option (List Char) × List Char)
  | '.' :: cs => (readDigits cs).map fun (ds, rest) => (some ds, rest)
  | cs => some (none, cs)

/-- An exponent behind its letter. -/
def readPower (cs : List Char) : Option (Option Int × List Char) :=
  let (negative, ds) :=
    match cs with
    | '+' :: rest => (false, rest)
    | '-' :: rest => (true, rest)
    | _ => (false, cs)
  (readDigits ds).map fun (ds, rest) =>
    let power : Int := Nat.ofDigitChars 10 ds 0
    (some (if negative then -power else power), rest)

/-- The exponent, if there is one. -/
def readExponent : List Char → Option (Option Int × List Char)
  | 'e' :: cs => readPower cs
  | 'E' :: cs => readPower cs
  | cs => some (none, cs)

/-- A number behind its sign. -/
def readMagnitude (negative : Bool) (cs : List Char) : Option (Numeral × List Char) := do
  let (whole, rest) ← readWhole cs
  let (fraction, rest) ← readFraction rest
  let (exponent, rest) ← readExponent rest
  return (⟨negative, whole, fraction, exponent⟩, rest)

/-- A number. -/
def readNumber : List Char → Option (Numeral × List Char)
  | '-' :: cs => readMagnitude true cs
  | cs => readMagnitude false cs

/-! ### Documents -/

/-- A reader of documents: what it found in front of the text, and what is left. -/
abbrev Reader := List Char → Option (Json × List Char)

/-- The items of an array that is not empty, up to the closing bracket. -/
def readItems (item : Reader) : Nat → List Char → Option (List Json × List Char)
  | 0, _ => none
  | tries + 1, cs => do
    let (first, rest) ← item cs
    match skip rest with
    | ',' :: rest =>
      let (more, rest) ← readItems item tries rest
      return (first :: more, rest)
    | ']' :: rest => return ([first], rest)
    | _ => none

/-- One member of an object. -/
def readMember (item : Reader) (cs : List Char) : Option ((Option String × Json) × List Char) :=
  match skip cs with
  | '"' :: rest => do
    let (key, rest) ← readText rest
    match skip rest with
    | ':' :: rest =>
      let (value, rest) ← item rest
      return ((key, value), rest)
    | _ => none
  | _ => none

/-- The members of an object that is not empty, up to the closing brace. -/
def readMembers (item : Reader) :
    Nat → List Char → Option (List (Option String × Json) × List Char)
  | 0, _ => none
  | tries + 1, cs => do
    let (first, rest) ← readMember item cs
    match skip rest with
    | ',' :: rest =>
      let (more, rest) ← readMembers item tries rest
      return (first :: more, rest)
    | '\x7d' :: rest => return ([first], rest)
    | _ => none

/-- A document in front of a text, with at most `depth - 1` others nested in it. -/
def readValue : Nat → Reader
  | 0, _ => none
  | depth + 1, cs =>
    match skip cs with
    | 'n' :: 'u' :: 'l' :: 'l' :: rest => some (null, rest)
    | 't' :: 'r' :: 'u' :: 'e' :: rest => some (boolean true, rest)
    | 'f' :: 'a' :: 'l' :: 's' :: 'e' :: rest => some (boolean false, rest)
    | '"' :: rest => (readText rest).map fun (s, rest) => (text s, rest)
    | '[' :: rest =>
      match skip rest with
      | ']' :: rest => some (array [], rest)
      | _ => (readItems (readValue depth) rest.length rest).map fun (xs, rest) => (array xs, rest)
    | '\x7b' :: rest =>
      match skip rest with
      | '\x7d' :: rest => some (object [], rest)
      | _ =>
        (readMembers (readValue depth) rest.length rest).map fun (ms, rest) => (object ms, rest)
    | written => (readNumber written).map fun (n, rest) => (number n, rest)

/-- The document that a text is, with nothing but space around it. -/
def ofText? (s : String) : Option Json :=
  let cs := s.toList
  match readValue (cs.length + 1) cs with
  | some (value, rest) => if (skip rest).isEmpty then some value else none
  | none => none

end Json

end Spreadsheet
