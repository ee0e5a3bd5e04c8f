import Spreadsheet.Proofs.Range.Cells
import Spreadsheet.Range.Cursor

/-!
# Walking over a range exactly

A cursor stands for the cells that are still to come: the rest of its row and the rows below. One
step takes the first of them, so after any number of steps the cells to come are the listing of the
range without as many cells in front. What a cursor says about their number is therefore right at
every moment, and once it has run out of cells it stays where it is.

Indices are numbers without bound here. Where the corners of a range are a little below the largest
32-bit word, all that a walk computes on its way fits into words.
-/

namespace Spreadsheet

namespace Range

variable {r : Range}

/-- The cells of one row of a range. -/
def cellsOfRow (r : Range) (row : Nat) : List Address :=
  (List.range' r.first.col r.colCount).map fun col => ⟨row, col⟩

theorem cells_eq (r : Range) :
    r.cells = (List.range' r.first.row r.rowCount).flatMap r.cellsOfRow :=
  rfl

theorem length_cellsOfRow (r : Range) (row : Nat) : (r.cellsOfRow row).length = r.colCount := by
  simp [cellsOfRow]

theorem length_flatMap_cellsOfRow (r : Range) (rows : List Nat) :
    (rows.flatMap r.cellsOfRow).length = rows.length * r.colCount := by
  simp [List.length_flatMap, length_cellsOfRow]

/-- As many cells are listed as are counted. -/
theorem length_cells (r : Range) : r.cells.length = r.cellCount := by
  rw [cells_eq, length_flatMap_cellsOfRow, List.length_range', cellCount]

end Range

namespace RangeCursor

variable {c : RangeCursor} {r : Range}

/-- Whether a cursor is no further than in the row below its range, and in no column behind it. -/
structure Standing (c : RangeCursor) : Prop where
  row_le : c.row ≤ c.range.last.row + 1
  col_le : c.col ≤ c.range.last.col

/-- The cells still to come: the rest of the row, and the rows below. -/
def upcoming (c : RangeCursor) : List Address :=
  if c.range.last.row < c.row then []
  else
    (List.range' c.col (c.range.last.col - c.col + 1)).map (⟨c.row, ·⟩) ++
      (List.range' (c.row + 1) (c.range.last.row - c.row)).flatMap c.range.cellsOfRow

/-- The walk after so many cells have been asked for. -/
def after (c : RangeCursor) : Nat → RangeCursor
  | 0 => c
  | n + 1 => (c.after n).next.2

theorem standing_start (r : Range) : (start r).Standing where
  row_le := Nat.le_succ_of_le r.row_le
  col_le := r.col_le

theorem Standing.next (h : c.Standing) : c.next.2.Standing := by
  have cols := c.range.col_le
  unfold RangeCursor.next
  split
  · exact h
  split
  · next inside _ => exact ⟨Nat.succ_le_succ (Nat.le_of_not_lt inside), cols⟩
  · next more => exact ⟨h.row_le, Nat.le_of_not_lt more⟩

/-- The cells to come at the start of a row are those of the row and of the rows below. -/
theorem upcoming_of_row (r : Range) (row : Nat) : upcoming ⟨r, row, r.first.col⟩ =
    (List.range' row (r.last.row + 1 - row)).flatMap r.cellsOfRow := by
  unfold upcoming
  dsimp only
  split
  · next past =>
      rw [Nat.sub_eq_zero_of_le past]
      rfl
  · next inside =>
      have rows : List.range' row (r.last.row + 1 - row) =
          row :: List.range' (row + 1) (r.last.row - row) := by
        rw [Nat.sub_add_comm (Nat.le_of_not_lt inside), List.range'_succ]
      rw [rows, List.flatMap_cons]
      rfl

/-- All cells of a range are to come at its start. -/
theorem upcoming_start (r : Range) : (start r).upcoming = r.cells := by
  have rows : r.last.row + 1 - r.first.row = r.rowCount := Nat.sub_add_comm r.row_le
  rw [start, upcoming_of_row, rows, Range.cells_eq]

/-- A step takes the first of the cells to come, and leaves the others. -/
theorem Standing.next_eq (h : c.Standing) :
    c.next.1 = c.upcoming.head? ∧ c.next.2.upcoming = c.upcoming.tail := by
  have inRow := h.col_le
  by_cases past : c.range.last.row < c.row
  · have none : c.upcoming = [] := if_pos past
    have stays : c.next = (.none, c) := if_pos past
    rw [stays, none]
    exact ⟨rfl, rfl⟩
  · have here : c.upcoming = ⟨c.row, c.col⟩ ::
        ((List.range' (c.col + 1) (c.range.last.col - c.col)).map (⟨c.row, ·⟩) ++
          (List.range' (c.row + 1) (c.range.last.row - c.row)).flatMap c.range.cellsOfRow) := by
      rw [upcoming, if_neg past, List.range'_succ]
      rfl
    rw [here, List.head?_cons, List.tail_cons]
    by_cases wraps : c.range.last.col < c.col + 1
    · have step : c.next =
          (some ⟨c.row, c.col⟩, { c with row := c.row + 1, col := c.range.first.col }) := by
        rw [RangeCursor.next, if_neg past, if_pos wraps]
      rw [step]
      refine ⟨rfl, ?_⟩
      rw [upcoming_of_row, show c.range.last.col - c.col = 0 by omega,
        show c.range.last.row + 1 - (c.row + 1) = c.range.last.row - c.row by omega]
      rfl
    · have step : c.next = (some ⟨c.row, c.col⟩, { c with col := c.col + 1 }) := by
        rw [RangeCursor.next, if_neg past, if_neg wraps]
      rw [step]
      refine ⟨rfl, ?_⟩
      rw [upcoming, if_neg past,
        show c.range.last.col - (c.col + 1) + 1 = c.range.last.col - c.col by omega]

/-- A cursor knows how many cells are to come. -/
theorem remaining_eq (c : RangeCursor) : c.remaining = c.upcoming.length := by
  unfold remaining upcoming
  split
  · rfl
  · rw [List.length_append, List.length_map, List.length_range', Range.length_flatMap_cellsOfRow,
      List.length_range', Nat.add_comm]

theorem Standing.after (h : c.Standing) (n : Nat) : (c.after n).Standing := by
  induction n with
  | zero => exact h
  | succ n ih => exact ih.next

theorem range_after (c : RangeCursor) (n : Nat) : (c.after n).range = c.range := by
  induction n with
  | zero => rfl
  | succ n ih =>
      rw [RangeCursor.after, next]
      split
      · exact ih
      · split <;> exact ih

/-- After some steps the cells to come are the others. -/
theorem Standing.upcoming_after (h : c.Standing) (n : Nat) :
    (c.after n).upcoming = c.upcoming.drop n := by
  induction n with
  | zero => rfl
  | succ n ih => rw [RangeCursor.after, ((h.after n).next_eq).2, ih, List.tail_drop]

/-- After some steps a walk over a range hands out the next of its cells, and as many fewer are to
come. -/
theorem next_after (r : Range) (n : Nat) : ((start r).after n).next.1 = r.cells[n]? := by
  have standing := standing_start r
  rw [((standing.after n).next_eq).1, standing.upcoming_after, upcoming_start, List.head?_drop]

theorem remaining_after (r : Range) (n : Nat) :
    ((start r).after n).remaining = r.cells.length - n := by
  rw [remaining_eq, (standing_start r).upcoming_after, upcoming_start, List.length_drop]

end RangeCursor

/-! ### Words -/

/-- Whether the indices of an address are so small that those behind them are words as well. -/
structure Address.InWords (a : Address) : Prop where
  row : a.row + 1 < UInt32.size
  col : a.col + 1 < UInt32.size

/-- Whether all that a cursor holds and computes fits into words. -/
structure RangeCursor.InWords (c : RangeCursor) : Prop where
  row : c.row < UInt32.size
  col : c.col + 1 < UInt32.size
  remaining : c.remaining < UInt64.size

namespace Range

variable {r : Range}

theorem last_inWords {a b : Address} (ha : a.InWords) (hb : b.InWords) :
    (spanning a b).last.InWords := by
  obtain ⟨row, col⟩ := ha
  obtain ⟨row', col'⟩ := hb
  constructor <;> simp only [spanning] <;> omega

theorem rowCount_lt (h : r.last.InWords) : r.rowCount < UInt32.size :=
  Nat.lt_of_le_of_lt (Nat.succ_le_succ (Nat.sub_le _ _)) h.row

theorem colCount_lt (h : r.last.InWords) : r.colCount < UInt32.size :=
  Nat.lt_of_le_of_lt (Nat.succ_le_succ (Nat.sub_le _ _)) h.col

theorem cellCount_lt (h : r.last.InWords) : r.cellCount < UInt64.size :=
  Nat.mul_lt_mul'' (rowCount_lt h) (colCount_lt h)

end Range

/-- A walk over a range never leaves the words. -/
theorem RangeCursor.inWords_after {r : Range} (h : r.last.InWords) (n : Nat) :
    ((start r).after n).InWords := by
  have standing := (standing_start r).after n
  have same : ((start r).after n).range = r := range_after _ n
  have few : ((start r).after n).remaining ≤ r.cellCount := by
    rw [remaining_after, Range.length_cells]
    exact Nat.sub_le _ _
  have row := standing.row_le
  have col := standing.col_le
  rw [same] at row col
  exact ⟨Nat.lt_of_le_of_lt row h.row, Nat.lt_of_le_of_lt (Nat.succ_le_succ col) h.col,
    Nat.lt_of_le_of_lt few (Range.cellCount_lt h)⟩

/-! ### The enumeration -/

/-- Two ranges are apart exactly if no cell of the first one is covered by the second. -/
theorem Range.intersection_eq_none_iff {r s : Range} :
    r.intersection s = none ↔ r.cells.filter s.contains = [] := by
  rw [← cells_intersection]
  cases r.intersection s with
  | none => simp
  | some shared => simp [shared.cells_ne_nil]

/-- Enumerating a range is exact. Whichever opposite corners are given, the same cells are listed,
strictly row by row; they are those that the range covers, and as many as it counts. A walk hands
them out one after the other, knows at every step how many are to come, and stays at its end. For
corners in words no step of it leaves the words. What two ranges share is enumerated as the first
one without what the second does not cover, and they share nothing exactly if nothing is left. -/
theorem expandRange_exact (a b : Address) (ha : a.InWords) (hb : b.InWords) :
    let r := Range.spanning a b
    let walk := (RangeCursor.start r).after
    (expandRange b a = expandRange a b ∧
      expandRange ⟨a.row, b.col⟩ ⟨b.row, a.col⟩ = expandRange a b ∧
      expandRange ⟨b.row, a.col⟩ ⟨a.row, b.col⟩ = expandRange a b) ∧
    (expandRange a b).Pairwise Address.Before ∧
    (∀ c, c ∈ expandRange a b ↔ r.contains c) ∧
    (expandRange a b).length = r.cellCount ∧
    (∀ n, (walk n).next.1 = (expandRange a b)[n]? ∧
      (walk n).remaining = (expandRange a b).length - n) ∧
    (r.rowCount < UInt32.size ∧ r.colCount < UInt32.size ∧ r.cellCount < UInt64.size ∧
      ∀ n, (walk n).InWords) ∧
    ∀ s t : Range,
      ((s.intersection t).map Range.cells).getD [] = s.cells.filter t.contains ∧
      (s.intersection t = none ↔ s.cells.filter t.contains = []) := by
  intro r walk
  have last : r.last.InWords := Range.last_inWords ha hb
  refine ⟨⟨?_, ?_, ?_⟩, r.pairwise_cells, fun c => Range.mem_cells, r.length_cells, ?_, ?_, ?_⟩
  · rw [expandRange, Range.spanning_comm, expandRange]
  · rw [expandRange, Range.spanning_other_corners, expandRange]
  · rw [expandRange, Range.spanning_comm, Range.spanning_other_corners, expandRange]
  · exact fun n => ⟨RangeCursor.next_after r n, RangeCursor.remaining_after r n⟩
  · exact ⟨Range.rowCount_lt last, Range.colCount_lt last, Range.cellCount_lt last,
      RangeCursor.inWords_after last⟩
  · exact fun s t => ⟨Range.cells_intersection, Range.intersection_eq_none_iff⟩

/-- The last four places whose indices may be corners, listed from the upper right one. The walk has
run out of them after four steps. -/
theorem expandRange_exact_brink :
    let a : Address := ⟨4294967293, 4294967294⟩
    let b : Address := ⟨4294967294, 4294967293⟩
    let walk := (RangeCursor.start (Range.spanning a b)).after
    a.InWords ∧ b.InWords ∧
    expandRange a b = [⟨4294967293, 4294967293⟩, a, b, ⟨4294967294, 4294967294⟩] ∧
    expandRange b a = expandRange a b ∧
    (walk 1).next.1 = some a ∧ (walk 1).remaining = 3 ∧
    (walk 5).next.1 = none ∧ (walk 5).remaining = 0 ∧ (walk 5).InWords := by
  intro a b walk
  have ha : a.InWords := ⟨by decide, by decide⟩
  have hb : b.InWords := ⟨by decide, by decide⟩
  have listed : expandRange a b =
      [⟨4294967293, 4294967293⟩, a, b, ⟨4294967294, 4294967294⟩] := by decide +kernel
  obtain ⟨⟨swapped, -⟩, -, -, -, steps, ⟨-, -, -, words⟩, -⟩ := expandRange_exact a b ha hb
  refine ⟨ha, hb, listed, swapped, ?_, ?_, ?_, ?_, words 5⟩
  · rw [(steps 1).1, listed]
    rfl
  · rw [(steps 1).2, listed]
    rfl
  · rw [(steps 5).1, listed]
    rfl
  · rw [(steps 5).2, listed]
    rfl

end Spreadsheet
