import Spreadsheet.Text.Blank

/-!
# Error codes

The five codes are all that a failing cell shows to the outside. Each has a name and a token,
which is the name between a hash sign and an exclamation mark.
-/

namespace Spreadsheet

/-- What a failing cell reports. -/
inductive ErrorCode where
  /-- A chain of references closes back on itself. -/
  | cycle
  /-- A reference points outside the sheet or nowhere at all. -/
  | ref
  /-- The text of a formula does not follow the grammar. -/
  | parse
  /-- A division by exactly zero. -/
  | div0
  /-- Values of the wrong type, a wrong number of arguments, an unknown function. -/
  | eval
deriving DecidableEq, Repr

namespace ErrorCode

/-- All codes. -/
def all : List ErrorCode :=
  [cycle, ref, parse, div0, eval]

/-- The bare name of a code. -/
def name : ErrorCode → String
  | cycle => "CYCLE"
  | ref => "REF"
  | parse => "PARSE"
  | div0 => "DIV0"
  | eval => "EVAL"

/-- The token that a cell shows. -/
def token (code : ErrorCode) : String :=
  "#" ++ code.name ++ "!"

/-- The code of a name, in any case. -/
def ofName? (cs : List Char) : Option ErrorCode :=
  all.find? fun code => Text.sameLetters code.name.toList cs

/-- The code of a token, in any case. -/
def ofToken? (cs : List Char) : Option ErrorCode :=
  match cs with
  | '#' :: rest => if rest.getLast? = some '!' then ofName? rest.dropLast else none
  | _ => none

end ErrorCode

end Spreadsheet
