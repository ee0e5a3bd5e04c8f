import Spreadsheet.Decimal.Reading
import Spreadsheet.Sheet.Basic

/-!
# Edits

What a user types is classified: text that begins with an equals sign is a formula, decimal text
is a number, `TRUE` and `FALSE` in any case are booleans, blank text clears the cell, and all
else is text, blanks included. Decimal text that no double can hold is text as well.

A batch of edits is checked against the extent before anything is stored, so it is applied as a
whole or not at all. Text that is no formula does not fail a batch; the cell stores the error. A
sheet can also be changed in place, and is then left behind as it is when an edit fails.
-/

namespace Spreadsheet

/-- What to do with a cell. -/
inductive Action where
  | setValue (v : Value)
  | setFormula (source : String)
  | clear

namespace Action

/-- The value that an input stands for, given its text without the blanks around it. -/
def valueOf (input : String) (trimmed : List Char) : Value :=
  match Decimal.finite? trimmed with
  | some n => .number n
  | none =>
    if Text.sameLetters trimmed "TRUE".toList then .boolean true
    else if Text.sameLetters trimmed "FALSE".toList then .boolean false
    else .text input

/-- What a user means who types this. -/
def ofInput (input : String) : Action :=
  match Text.trim input.toList with
  | [] => clear
  | '=' :: rest => setFormula (String.ofList ('=' :: rest))
  | trimmed => setValue (valueOf input trimmed)

/-- The cell that an action leaves behind. -/
def cell? : Action → Option Cell
  | setValue v => some (.literal v)
  | setFormula source => some (.ofFormula source)
  | clear => none

end Action

/-- An action at an address. -/
structure Edit where
  address : Address
  action : Action

namespace Sheet

/-- The sheet behind an edit inside its extent. -/
def applyEdit (s : Sheet) (e : Edit) : Except AddressError Sheet :=
  match e.action.cell? with
  | some c => s.set e.address c
  | none => .ok (s.remove e.address)

/-- The sheet behind a batch of edits, applied in order, or the bounds error of the first edit
outside the extent. -/
def applyEdits (s : Sheet) (edits : List Edit) : Except AddressError Sheet := do
  edits.forM fun e => s.checkBounds e.address
  edits.foldlM applyEdit s

/-- Applies edits one after the other, until one fails. What has been stored by then stays. -/
def performEdits : List Edit → Sheet → Except AddressError Unit × Sheet
  | [], s => (.ok (), s)
  | e :: edits, s =>
    match s.applyEdit e with
    | .ok s => performEdits edits s
    | .error fault => (.error fault, s)

/-- Applies a batch of edits in place: how many edits these are, or why the batch fails, and the
sheet that is left behind. -/
def performBatch (s : Sheet) (edits : List Edit) : Except AddressError Nat × Sheet :=
  match edits.forM fun e => s.checkBounds e.address with
  | .ok () =>
    match s.performEdits edits with
    | (.ok (), s) => (.ok edits.length, s)
    | (.error fault, s) => (.error fault, s)
  | .error fault => (.error fault, s)

end Sheet

end Spreadsheet
