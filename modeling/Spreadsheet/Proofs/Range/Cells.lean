import Spreadsheet.Proofs.Address.Order
import Spreadsheet.Range.Basic

/-!
# The cells of a range

Listing a range gives exactly the addresses that it covers, row by row.
-/

namespace Spreadsheet.Range

variable {r : Range} {a : Address}

theorem spanning_comm (a b : Address) : spanning a b = spanning b a := by
  simp [spanning, Nat.min_comm, Nat.max_comm]

/-- Either pair of opposite corners spans the same range. -/
theorem spanning_other_corners (a b : Address) :
    spanning ⟨a.row, b.col⟩ ⟨b.row, a.col⟩ = spanning a b := by
  simp [spanning, Nat.min_comm, Nat.max_comm]

theorem contains_iff : r.contains a ↔
    (r.first.row ≤ a.row ∧ a.row ≤ r.last.row) ∧ r.first.col ≤ a.col ∧ a.col ≤ r.last.col := by
  simp [contains, and_assoc]

theorem mem_cells : a ∈ r.cells ↔ r.contains a := by
  have rows := r.row_le
  have cols := r.col_le
  rw [contains_iff]
  simp only [cells, List.mem_flatMap, List.mem_map, List.mem_range'_1, rowCount, colCount]
  constructor
  · rintro ⟨row, hrow, col, hcol, rfl⟩
    constructor <;> constructor <;> simp only <;> omega
  · intro h
    exact ⟨a.row, by omega, a.col, by omega, rfl⟩

theorem contains_single {b : Address} : (single b).contains a ↔ a = b := by
  obtain ⟨row, col⟩ := a
  obtain ⟨row', col'⟩ := b
  rw [contains_iff, Address.mk.injEq]
  simp only [single]
  omega

/-- The cells that two ranges share, if they share any. -/
theorem mem_cells_intersection {s : Range} :
    a ∈ ((r.intersection s).map cells).getD [] ↔ r.contains a ∧ s.contains a := by
  unfold intersection
  dsimp only
  split
  · rw [Option.map_some, Option.getD_some, mem_cells, contains_iff, contains_iff, contains_iff]
    dsimp only
    omega
  · next apart =>
      rw [Option.map_none, Option.getD_none, contains_iff, contains_iff]
      constructor
      · intro h
        cases h
      · intro both
        exact absurd ⟨by omega, by omega⟩ apart

theorem contains_first (r : Range) : r.contains r.first :=
  contains_iff.mpr ⟨⟨Nat.le_refl _, r.row_le⟩, Nat.le_refl _, r.col_le⟩

theorem contains_last (r : Range) : r.contains r.last :=
  contains_iff.mpr ⟨⟨r.row_le, Nat.le_refl _⟩, r.col_le, Nat.le_refl _⟩

theorem intersection_eq_self {s : Range} (h : ∀ a, r.contains a → s.contains a) :
    r.intersection s = some r := by
  have near := contains_iff.mp (h _ r.contains_first)
  have far := contains_iff.mp (h _ r.contains_last)
  obtain ⟨⟨row, col⟩, ⟨row', col'⟩, rows, cols⟩ := r
  simp only at rows cols near far
  have corners : max row s.first.row = row ∧ max col s.first.col = col ∧
      min row' s.last.row = row' ∧ min col' s.last.col = col' := by omega
  simp [intersection, corners, rows, cols]

/-- A range holds the rectangle between any two of its cells. -/
theorem contains_of_spanning {b c : Address} (ha : r.contains a) (hb : r.contains b)
    (hc : (spanning a b).contains c) : r.contains c := by
  rw [contains_iff] at *
  simp only [spanning] at hc
  omega

theorem cells_ne_nil (r : Range) : r.cells ≠ [] :=
  List.ne_nil_of_mem (mem_cells.mpr r.contains_first)

theorem pairwise_cells (r : Range) : r.cells.Pairwise Address.Before := by
  rw [cells, List.pairwise_flatMap]
  constructor
  · intro row _
    rw [List.pairwise_map]
    apply List.Pairwise.imp _ (List.pairwise_lt_range' 1)
    intro col col' lower
    exact Address.before_iff.mpr (.inr ⟨rfl, lower⟩)
  · apply List.Pairwise.imp _ (List.pairwise_lt_range' 1)
    intro row row' lower a ha b hb
    obtain ⟨col, -, rfl⟩ := List.mem_map.mp ha
    obtain ⟨col', -, rfl⟩ := List.mem_map.mp hb
    exact Address.before_iff.mpr (.inl lower)

/-- Listing what two ranges share is listing the first one and leaving out what lies outside of the
second one. -/
theorem cells_intersection {s : Range} :
    ((r.intersection s).map cells).getD [] = r.cells.filter s.contains := by
  have sorted : (((r.intersection s).map cells).getD []).Pairwise Address.Before := by
    cases r.intersection s with
    | none => exact .nil
    | some shared => exact shared.pairwise_cells
  refine sorted.eq_of_mem_iff (r.pairwise_cells.filter _) fun a => ?_
  rw [mem_cells_intersection, List.mem_filter, mem_cells]

end Spreadsheet.Range
