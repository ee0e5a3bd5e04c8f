import Spreadsheet.Evaluation.Calculation

/-!
# Reports

A report lists every stored cell of a sheet under its address: the value that the cell holds or
its formula results in, or the token of its error. It is one JSON object whose keys are sorted as
texts, so `A10` stands in front of `A2`. JSON has no number for a double that is not finite; what
stands in the report for such a value is null, as for the empty one.
-/

namespace Spreadsheet

/-- What a report holds for a cell: a JSON value without parts. -/
inductive Report.Entry where
  | null
  | boolean (b : Bool)
  | number (n : Float) (finite : n.isFinite)
  | text (s : String)
deriving DecidableEq

/-- What is reported of a cell, by the text of its address. -/
abbrev Report := Std.ExtTreeMap String Report.Entry

/-- A value in JSON. -/
def Report.Entry.ofValue : Value → Report.Entry
  | .empty => null
  | .boolean b => boolean b
  | .number n => if finite : n.isFinite then number n finite else null
  | .text s => text s

/-- What a report holds for an outcome. -/
def Outcome.reported : Outcome → Report.Entry
  | value v => .ofValue v
  | error code _ => .text code.token

namespace Report

/-- The outcome of a stored cell: that of the calculation if it holds a formula. -/
def outcome (s : Sheet) (c : Calculation) (a : Address) : Outcome :=
  match c.outcomes[a]? with
  | some outcome => outcome
  | none => s.evaluate {} a

/-- The report of a sheet after a calculation. -/
def ofSheet (s : Sheet) (c : Calculation) : Report :=
  s.entries.foldl (fun r (a, _) => r.insert a.text (outcome s c a).reported) ∅

/-! ### Writing -/

/-- A hexadecimal digit, in lower case. -/
def hexDigit (n : Nat) : Char :=
  if n < 10 then Char.ofNat (48 + n) else Char.ofNat (87 + n)

/-- A character inside a JSON text. -/
def escape (c : Char) : List Char :=
  if c = '"' then ['\\', '"']
  else if c = '\\' then ['\\', '\\']
  else if c = '\x08' then ['\\', 'b']
  else if c = '\x0c' then ['\\', 'f']
  else if c = '\n' then ['\\', 'n']
  else if c = '\r' then ['\\', 'r']
  else if c = '\t' then ['\\', 't']
  else if c.toNat < 32 then ['\\', 'u', '0', '0', hexDigit (c.toNat / 16), hexDigit (c.toNat % 16)]
  else [c]

/-- A JSON text. -/
def quoted (s : String) : String :=
  String.ofList ('"' :: (s.toList.flatMap escape ++ ['"']))

/-- An entry as JSON text. -/
def entryText : Entry → String
  | .null => "null"
  | .boolean b => if b then "true" else "false"
  | .number n _ => Decimal.report n
  | .text s => quoted s

/-- How the members of an object are set out. -/
structure Style where
  /-- What stands in front of each member. -/
  before : String
  /-- What stands between a key and its value. -/
  colon : String
  /-- What stands behind the last member. -/
  after : String

/-- All on one line, without blanks. -/
def Style.compact : Style := ⟨"", ":", ""⟩

/-- A line for each member. -/
def Style.pretty : Style := ⟨"\n  ", ": ", "\n"⟩

/-- One member of the object. -/
def memberText (style : Style) (entry : String × Entry) : String :=
  style.before ++ quoted entry.1 ++ style.colon ++ entryText entry.2

/-- A report as a JSON object. -/
def text (style : Style) (r : Report) : String :=
  if r.isEmpty then "\x7b\x7d"
  else
    "\x7b" ++ String.intercalate "," (r.toList.map (memberText style)) ++ style.after ++ "\x7d"

end Report

end Spreadsheet
