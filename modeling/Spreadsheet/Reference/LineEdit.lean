import Spreadsheet.Reference.Basic

/-!
# Inserting and deleting lines

A line edit inserts an empty line in front of the line at an index, or deletes that line. The
lines behind it move by one, and relative references move with them.

A lone reference to a deleted line points nowhere. The ends of a range behave differently: the
range shrinks instead, because the line behind it slides under its near end and its far end
retreats by one. Only when nothing is left of the range do its ends cross, and then the range
points nowhere too. The ends may be written in either order; which one is the near end is
decided separately on each axis.
-/

namespace Spreadsheet

/-- What happens at the index of a line edit. -/
inductive LineChange where
  | insert
  | delete
deriving DecidableEq, Repr

/-- One line inserted in front of the line at `index`, or that line deleted. -/
structure LineEdit where
  axis : Axis
  change : LineChange
  index : Nat
deriving DecidableEq, Repr

/-- How an index reacts when its own line is deleted. -/
inductive Edge where
  /-- It vanishes. -/
  | lone
  /-- The next line slides under it. -/
  | near
  /-- It retreats by one. -/
  | far
deriving DecidableEq, Repr

namespace LineEdit

/-- Where an edit takes a relative index on its own axis, which has `limit` lines. -/
def adjustIndex (limit : Nat) (change : LineChange) (line : Nat) (edge : Edge) (index : Nat) :
    Option Nat :=
  match change with
  | .insert =>
    if index < line then some index
    else if index + 1 < limit then some (index + 1)
    else none
  | .delete =>
    if index < line then some index
    else if line < index then some (index - 1)
    else
      match edge with
      | .lone => none
      | .near => some index
      | .far => if index = 0 then none else some (index - 1)

/-- Where an edit takes the index of a reference along an axis. -/
def adjustAlong (e : LineEdit) (axis : Axis) (edge : Edge) (r : Reference) : Option Nat :=
  if r.fixedOn axis ∨ axis ≠ e.axis then some (r.along axis)
  else adjustIndex axis.limit e.change e.index edge (r.along axis)

end LineEdit

namespace Reference

/-- Where an edit takes one end of a range, given how that end reacts on each axis. -/
def adjustEnd (r : Reference) (e : LineEdit) (colEdge rowEdge : Edge) : Option Reference :=
  match e.adjustAlong .col colEdge r, e.adjustAlong .row rowEdge r with
  | some col, some row => some { r with address := ⟨row, col⟩ }
  | _, _ => none

/-- Where an edit takes a lone reference. -/
def adjust (r : Reference) (e : LineEdit) : Option Reference :=
  r.adjustEnd e .lone .lone

/-- How the first of two ends reacts; the second one reacts as the other edge. -/
def edges (first second : Nat) : Edge × Edge :=
  if first ≤ second then (.near, .far) else (.far, .near)

/-- Whether two ends have changed sides. Ends that meet have not. -/
def crossed (first second newFirst newSecond : Nat) : Bool :=
  decide (first ≤ second) != decide (newFirst ≤ newSecond) && newFirst != newSecond

/-- Where an edit takes the two ends of a range, in the order in which they were written. -/
def adjustRange (first second : Reference) (e : LineEdit) : Option (Reference × Reference) :=
  let (firstCol, secondCol) := edges first.address.col second.address.col
  let (firstRow, secondRow) := edges first.address.row second.address.row
  match first.adjustEnd e firstCol firstRow, second.adjustEnd e secondCol secondRow with
  | some newFirst, some newSecond =>
    if crossed first.address.col second.address.col newFirst.address.col newSecond.address.col ||
        crossed first.address.row second.address.row newFirst.address.row newSecond.address.row
    then none
    else some (newFirst, newSecond)
  | _, _ => none

end Reference

end Spreadsheet
