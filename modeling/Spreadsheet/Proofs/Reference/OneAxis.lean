import Spreadsheet.Reference.LineEdit

/-!
# An edit of lines acts along one axis

An edit changes at most the index of a reference along the axis of the edit, and looks at nothing
else of it. So edits along different axes do not see each other, and they can be made in either
order. Along one axis, deleting a line that has just been inserted takes back what the insertion
did, as long as it pushed nothing off the grid.
-/

namespace Spreadsheet

namespace Reference

variable {r a b : Reference} {axis axis' : Axis} {i j : Nat}

/-- A reference with another index along an axis. -/
def placed (r : Reference) (axis : Axis) (i : Nat) : Reference :=
  match axis with
  | .row => { r with address := { r.address with row := i } }
  | .col => { r with address := { r.address with col := i } }

@[simp] theorem along_placed_self : (r.placed axis i).along axis = i := by
  cases axis <;> rfl

theorem along_placed_of_ne (h : axis' ≠ axis) :
    (r.placed axis i).along axis' = r.along axis' := by
  cases axis <;> cases axis' <;> first | rfl | exact absurd rfl h

@[simp] theorem fixedOn_placed : (r.placed axis i).fixedOn axis' = r.fixedOn axis' := by
  cases axis <;> cases axis' <;> rfl

theorem placed_eq : r.placed axis i = { r with address := (r.placed axis i).address } := by
  cases axis <;> rfl

@[simp] theorem colFixed_placed : (r.placed axis i).colFixed = r.colFixed := by
  cases axis <;> rfl

@[simp] theorem placed_placed : (r.placed axis i).placed axis j = r.placed axis j := by
  cases axis <;> rfl

@[simp] theorem placed_along : r.placed axis (r.along axis) = r := by
  cases axis <;> rfl

theorem placed_comm (h : axis ≠ axis') :
    (r.placed axis i).placed axis' j = (r.placed axis' j).placed axis i := by
  cases axis <;> cases axis' <;> first | rfl | exact absurd rfl h

end Reference

namespace LineEdit

variable {e e' : LineEdit} {axis axis' : Axis} {r a b : Reference} {i j : Nat} {edge : Edge}

/-! ### Only the index along the axis of the edit -/

theorem adjustAlong_self (relative : r.fixedOn e.axis = false) (edge : Edge) :
    e.adjustAlong e.axis edge r =
      adjustIndex e.axis.limit e.change e.index edge (r.along e.axis) := by
  simp [adjustAlong, relative]

theorem adjustAlong_of_ne (h : axis ≠ e.axis) (edge : Edge) :
    e.adjustAlong axis edge r = some (r.along axis) := by
  simp [adjustAlong, h]

theorem adjustAlong_placed (h : axis' ≠ axis) :
    e.adjustAlong axis edge (r.placed axis' i) = e.adjustAlong axis edge r := by
  rw [adjustAlong, adjustAlong, Reference.fixedOn_placed, Reference.along_placed_of_ne h.symm]

theorem adjustEnd_eq (colEdge rowEdge : Edge) : r.adjustEnd e colEdge rowEdge =
    (e.adjustAlong e.axis (match e.axis with | .row => rowEdge | .col => colEdge) r).map
      (r.placed e.axis) := by
  unfold Reference.adjustEnd
  cases axis : e.axis with
  | row =>
      have still : e.adjustAlong .col colEdge r = some (r.along .col) :=
        adjustAlong_of_ne (by simp [axis]) colEdge
      rw [still]
      cases e.adjustAlong .row rowEdge r <;> rfl
  | col =>
      have still : e.adjustAlong .row rowEdge r = some (r.along .row) :=
        adjustAlong_of_ne (by simp [axis]) rowEdge
      rw [still]
      cases e.adjustAlong .col colEdge r <;> rfl

/-- Where an edit takes a lone reference depends on its index along the axis of the edit. -/
theorem adjust_eq : r.adjust e = (e.adjustAlong e.axis .lone r).map (r.placed e.axis) := by
  rw [Reference.adjust, adjustEnd_eq]
  cases e.axis <;> rfl

/-- Where an edit takes the indices of two ends along its own axis. -/
def adjustEnds (e : LineEdit) (a b : Reference) : Option (Nat × Nat) :=
  let edges := Reference.edges (a.along e.axis) (b.along e.axis)
  match e.adjustAlong e.axis edges.1 a, e.adjustAlong e.axis edges.2 b with
  | some p, some q =>
    if Reference.crossed (a.along e.axis) (b.along e.axis) p q then none else some (p, q)
  | _, _ => none

theorem crossed_self (p q : Nat) : Reference.crossed p q p q = false := by
  simp [Reference.crossed]

/-- Where an edit takes a range depends on the indices of its ends along the axis of the edit. -/
theorem adjustRange_eq : a.adjustRange b e = (e.adjustEnds a b).map fun moved =>
    (a.placed e.axis moved.1, b.placed e.axis moved.2) := by
  unfold Reference.adjustRange adjustEnds
  simp only [adjustEnd_eq]
  cases axis : e.axis with
  | row =>
      simp only [Reference.along, Address.along_row]
      cases e.adjustAlong .row (Reference.edges a.address.row b.address.row).1 a with
      | none => rfl
      | some p =>
          cases e.adjustAlong .row (Reference.edges a.address.row b.address.row).2 b with
          | none => rfl
          | some q =>
              simp only [Option.map_some, Reference.placed, crossed_self, Bool.false_or]
              split <;> simp [*]
  | col =>
      simp only [Reference.along, Address.along_col]
      cases e.adjustAlong .col (Reference.edges a.address.col b.address.col).1 a with
      | none => rfl
      | some p =>
          cases e.adjustAlong .col (Reference.edges a.address.col b.address.col).2 b with
          | none => rfl
          | some q =>
              simp only [Option.map_some, Reference.placed, crossed_self, Bool.or_false]
              split <;> simp [*]

theorem adjustEnds_placed (h : axis ≠ e.axis) :
    e.adjustEnds (a.placed axis i) (b.placed axis j) = e.adjustEnds a b := by
  simp only [adjustEnds, Reference.along_placed_of_ne h.symm, adjustAlong_placed h]

/-! ### Different axes -/

/-- Edits along different axes can be made in either order. -/
theorem adjust_comm (h : e.axis ≠ e'.axis) :
    (r.adjust e).bind (·.adjust e') = (r.adjust e').bind (·.adjust e) := by
  simp only [adjust_eq]
  cases hi : e.adjustAlong e.axis .lone r with
  | none =>
      cases e'.adjustAlong e'.axis .lone r with
      | none => rfl
      | some j => simp [adjustAlong_placed h.symm, hi]
  | some i =>
      cases hj : e'.adjustAlong e'.axis .lone r with
      | none => simp [adjustAlong_placed h, hj]
      | some j => simp [adjustAlong_placed h, adjustAlong_placed h.symm, hi, hj,
          Reference.placed_comm h]

theorem adjustRange_comm (h : e.axis ≠ e'.axis) :
    (a.adjustRange b e).bind (fun moved => moved.1.adjustRange moved.2 e') =
      (a.adjustRange b e').bind fun moved => moved.1.adjustRange moved.2 e := by
  simp only [adjustRange_eq]
  cases hi : e.adjustEnds a b with
  | none =>
      cases e'.adjustEnds a b with
      | none => rfl
      | some j => simp [adjustEnds_placed h.symm, hi]
  | some i =>
      cases hj : e'.adjustEnds a b with
      | none => simp [adjustEnds_placed h, hj]
      | some j => simp [adjustEnds_placed h, adjustEnds_placed h.symm, hi, hj,
          Reference.placed_comm h]

/-! ### A line inserted and deleted again -/

/-- Where an insertion takes an index that it does not push off the grid. -/
def inserted (fixed : Bool) (line index : Nat) : Nat :=
  if fixed ∨ index < line then index else index + 1

variable {fixed : Bool} {line p q : Nat}

/-- An insertion keeps the order of two ends. -/
theorem inserted_le_inserted : inserted fixed line p ≤ inserted fixed line q ↔ p ≤ q := by
  unfold inserted
  grind

theorem adjustAlong_insert (inside : r.along axis + 1 < axis.limit) (edge : Edge) :
    adjustAlong ⟨axis, .insert, line⟩ axis edge r =
      some (inserted (r.fixedOn axis) line (r.along axis)) := by
  unfold adjustAlong adjustIndex inserted
  grind

/-- No index is taken to the inserted line, so none is lost when that line is deleted. -/
theorem adjustAlong_delete_inserted (h : r.fixedOn axis = fixed) (edge : Edge) :
    adjustAlong ⟨axis, .delete, line⟩ axis edge (r.placed axis (inserted fixed line i)) =
      some i := by
  simp only [adjustAlong, adjustIndex, inserted, Reference.fixedOn_placed,
    Reference.along_placed_self, h]
  grind

/-- A reference comes back unless it names the last line of the grid. -/
theorem adjust_insert_delete (inside : r.along axis + 1 < axis.limit) :
    (r.adjust ⟨axis, .insert, line⟩).bind (·.adjust ⟨axis, .delete, line⟩) = some r := by
  simp [adjust_eq, adjustAlong_insert inside, adjustAlong_delete_inserted]

/-- A range comes back unless an end names the last line of the grid, if both ends are fixed along
the axis or neither is. -/
theorem adjustRange_insert_delete (inside : a.along axis + 1 < axis.limit)
    (inside' : b.along axis + 1 < axis.limit) (alike : a.fixedOn axis = b.fixedOn axis) :
    (a.adjustRange b ⟨axis, .insert, line⟩).bind
      (fun moved => moved.1.adjustRange moved.2 ⟨axis, .delete, line⟩) = some (a, b) := by
  simp [adjustRange_eq, adjustEnds, adjustAlong_insert inside, adjustAlong_insert inside',
    adjustAlong_delete_inserted, alike, Reference.crossed, inserted_le_inserted]

end LineEdit

end Spreadsheet
