import Spreadsheet.Formula.Redirection
import Spreadsheet.SheetFile.Basic
import Spreadsheet.SheetFile.Report

/-!
# Commands

There are two commands: one evaluates a sheet file and reports every cell, the other gives the
text of a formula as it reads when copied from one cell to another. A command ends with a status
and with what it says on its two channels; results go to one of them, numbers and errors to the
other.

An error is told with its context first. The cause follows in a paragraph of its own, indented.
-/

namespace Spreadsheet

/-- How a command ends. -/
structure Ending where
  status : Nat
  output : String
  messages : String
deriving DecidableEq, Repr

namespace Command

/-- A text with its lines indented. -/
def indented (s : String) : String :=
  String.ofList (s.toList.flatMap fun c => if c = '\n' then '\n' :: "    ".toList else [c])

/-- The end of a command that did its work. -/
def success (output messages : String) : Ending :=
  ⟨0, output, messages⟩

/-- The end of a command that failed. -/
def failure (context : String) : Ending :=
  ⟨1, "", "Error: " ++ context⟩

/-- The end of a command that failed, with the cause. -/
def failureWith (context : String) (cause : AddressError) : Ending :=
  failure (context ++ "\n\nCaused by:\n    " ++ indented cause.message ++ "\n")

/-- The numbers of a calculation. -/
def summary (n : Statistics) : String :=
  "Calculated " ++ toString n.calculated ++ " formulas (" ++ toString n.errors ++ " errors, " ++
    toString n.circular ++ " circular, " ++ toString n.unparsable ++ " unparseable)\n"

/-- The report of a sheet. -/
def report (s : Sheet) (style : Report.Style) (options : Options) : Ending :=
  let calculation := s.calculate options
  success ((Report.ofSheet s calculation).text style ++ "\n") (summary calculation.statistics)

/-- Evaluates the sheet file at `path`, which holds `contents`. -/
def evaluate (path contents : String) (style : Report.Style) (options : Options) : Ending :=
  match SheetFile.ofText? contents with
  | none => failure ("Failed to parse '" ++ path ++ "'")
  | some file =>
    match file.toSheet with
    | .error (.badKey key cause) => failureWith ("Invalid cell address '" ++ key ++ "'") cause
    | .error (.outside cause) => failureWith "Sheet file has cells outside its extent" cause
    | .ok sheet => report sheet style options

/-- Copies a formula from one cell to another. -/
def copyFormula (formula source target : String) : Ending :=
  match Address.ofText source, Address.ofText target with
  | .error cause, _ => failureWith ("Invalid --from '" ++ source ++ "'") cause
  | _, .error cause => failureWith ("Invalid --to '" ++ target ++ "'") cause
  | .ok a, .ok b =>
    if (Text.trim formula.toList).isEmpty then failure "Formula is empty\n"
    else success (Formula.copy formula a b ++ "\n") ""

end Command

end Spreadsheet
