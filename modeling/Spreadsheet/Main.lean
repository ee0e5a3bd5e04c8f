import Spreadsheet.Command.Request

/-!
# The command line

Reads the sheet file that a request names, runs the command and prints what it says.
-/

namespace Spreadsheet.Request

/-- Prints how a command ended. -/
def printEnding (e : Ending) : IO UInt32 := do
  IO.print e.output
  IO.eprint e.messages
  return e.status.toUInt32

/-- Does what is asked for; without a request, says what can be asked for. -/
def run : Option Request → IO UInt32
  | some (.evaluate path style options) => do
    printEnding (Command.evaluate path (← IO.FS.readFile path) style options)
  | some (.copyFormula formula source target) =>
    printEnding (Command.copyFormula formula source target)
  | none => printEnding ⟨2, "", usage⟩

end Spreadsheet.Request

/-- Evaluates a sheet file or copies a formula. -/
def main (arguments : List String) : IO UInt32 :=
  Spreadsheet.Request.run (Spreadsheet.Request.ofArguments? arguments)
