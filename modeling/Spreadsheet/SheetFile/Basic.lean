import Spreadsheet.Json.Basic
import Spreadsheet.Sheet.Edit

/-!
# Sheet files

A sheet file is a JSON object with an identifier, a name, an extent and the contents of cells,
all of them optional. The same five parts may also be given as an array, in this order. A member
with any other name is ignored; one of these names may not occur twice. Of two cells with the
same key the last one counts.

A cell is empty, a boolean, a number or a text, and a text that begins with an equals sign is a
formula. The cells are stored in the order of their keys, so among different spellings of one
address the last one counts.
-/

namespace Spreadsheet

/-- The contents of a sheet file. -/
structure SheetFile where
  id : Option String := none
  name : Option String := none
  rows : Option Nat := none
  cols : Option Nat := none
  cells : Std.ExtTreeMap String Value := ∅

namespace SheetFile

/-! ### Reading -/

/-- A text or nothing. -/
def textOrNull? : Json → Option (Option String)
  | .null => some none
  | .text (some s) => some (some s)
  | _ => none

/-- A count or nothing. -/
def countOrNull? : Json → Option (Option Nat)
  | .null => some none
  | .number n => n.toCount?.map some
  | _ => none

/-- What a cell holds. -/
def value? : Json → Option Value
  | .null => some .empty
  | .boolean b => some (.boolean b)
  | .number n => n.toFloat?.map .number
  | .text (some s) => some (.text s)
  | _ => none

/-- One cell more. -/
def addCell? (cells : Std.ExtTreeMap String Value) :
    Option String × Json → Option (Std.ExtTreeMap String Value)
  | (some key, j) => (value? j).map fun v => cells.insert key v
  | (none, _) => none

/-- The contents of all cells. -/
def cells? : Json → Option (Std.ExtTreeMap String Value)
  | .object members => members.foldlM addCell? ∅
  | _ => none

/-- The names of the parts of a sheet file, in their order. -/
def partNames : List String :=
  ["id", "name", "rows", "cols", "cells"]

/-- The file with one part more. -/
def setPart? (f : SheetFile) (name : String) (j : Json) : Option SheetFile :=
  match name with
  | "id" => (textOrNull? j).map fun id => { f with id := id }
  | "name" => (textOrNull? j).map fun name => { f with name := name }
  | "rows" => (countOrNull? j).map fun rows => { f with rows := rows }
  | "cols" => (countOrNull? j).map fun cols => { f with cols := cols }
  | "cells" => (cells? j).map fun cells => { f with cells := cells }
  | _ => some f

/-- The file with the parts given by name. -/
def setParts? (f : SheetFile) (members : List (String × Json)) : Option SheetFile :=
  members.foldlM (fun f (name, j) => f.setPart? name j) f

/-- The members of an object with the names of their parts, if every name is a text. -/
def named? (members : List (Option String × Json)) : Option (List (String × Json)) :=
  members.mapM fun (name, j) => name.map fun name => (name, j)

/-- Whether no part of a file is given twice. -/
def eachPartOnce (members : List (String × Json)) : Bool :=
  partNames.all fun name => members.countP (·.1 == name) ≤ 1

/-- The file that a document describes. -/
def ofJson? : Json → Option SheetFile
  | .object members => do
    let members ← named? members
    if eachPartOnce members then setParts? {} members else none
  | .array items =>
    if items.length ≤ partNames.length then setParts? {} (partNames.zip items) else none
  | _ => none

/-- The file that a text describes. -/
def ofText? (s : String) : Option SheetFile :=
  (Json.ofText? s).bind ofJson?

/-! ### Making a sheet -/

/-- Why the cells of a file do not make a sheet. -/
inductive CellsError where
  /-- The key of a cell is no address. -/
  | badKey (key : String) (cause : AddressError)
  /-- A cell lies outside the extent. -/
  | outside (cause : AddressError)

/-- What the contents of a cell do to it. -/
def action : Value → Action
  | .empty => .clear
  | .text s => if s.toList.head? = some '=' then .setFormula s else .setValue (.text s)
  | v => .setValue v

/-- The edit that one cell of a file stands for. -/
def edit (entry : String × Value) : Except CellsError Edit :=
  match Address.ofText entry.1 with
  | .ok a => .ok ⟨a, action entry.2⟩
  | .error cause => .error (.badKey entry.1 cause)

/-- The sheet without its cells. A file without a name describes `Sheet1`, and the identifier is
the name if there is no other. -/
def frame (f : SheetFile) : Sheet :=
  let name := f.name.getD "Sheet1"
  .blank (f.id.getD name) name (f.rows.getD defaultRows) (f.cols.getD defaultCols)

/-- The sheet that a file describes. -/
def toSheet (f : SheetFile) : Except CellsError Sheet := do
  let edits ← f.cells.toList.mapM edit
  (f.frame.applyEdits edits).mapError .outside

end SheetFile

end Spreadsheet
