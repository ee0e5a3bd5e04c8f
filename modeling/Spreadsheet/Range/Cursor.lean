import Spreadsheet.Range.Basic

/-!
# Walking over a range

A cursor hands out the cells of a range one at a time, row by row, and knows at every moment
how many are still to come. It stands on the next cell; once it has left the last row there is
no next cell, and there never will be one again.
-/

namespace Spreadsheet

/-- A walk over the cells of `range`, standing on the next one. -/
structure RangeCursor where
  range : Range
  row : Nat
  col : Nat

namespace RangeCursor

/-- The walk that has not started yet. -/
def start (range : Range) : RangeCursor :=
  ⟨range, range.first.row, range.first.col⟩

/-- The next cell, if there is one, and the walk behind it. -/
def next (c : RangeCursor) : Option Address × RangeCursor :=
  if c.range.last.row < c.row then (none, c)
  else if c.range.last.col < c.col + 1 then
    (some ⟨c.row, c.col⟩, { c with row := c.row + 1, col := c.range.first.col })
  else (some ⟨c.row, c.col⟩, { c with col := c.col + 1 })

/-- How many cells are still to come. -/
def remaining (c : RangeCursor) : Nat :=
  if c.range.last.row < c.row then 0
  else (c.range.last.row - c.row) * c.range.colCount + (c.range.last.col - c.col + 1)

end RangeCursor

/-- The cells between two opposite corners, row by row. -/
def expandRange (a b : Address) : List Address :=
  (Range.spanning a b).cells

end Spreadsheet
