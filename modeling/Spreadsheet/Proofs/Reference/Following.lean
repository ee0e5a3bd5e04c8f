import Spreadsheet.Proofs.Reference.Ends

/-!
# References follow the cells

Cells are moved by one rule when lines are inserted or deleted, and references by another one,
which looks at the ends of a range. The two rules agree: as long as a relative reference is not
lost, it points at the moved cell, and a range covers the moved cells of the old range and none
that came from outside of it. What is lost is said for a sheet of any extent inside the grid.
-/

namespace Spreadsheet

namespace LineEdit

variable {e : LineEdit}

/-! ### One axis -/

section Index

variable {limit size p p' : Nat}

/-- Whether an edit keeps what lies between two lines, the first and the last one included, of a
sheet with `size` lines. An insertion loses what lies on the last line of the sheet, a deletion
what lies nowhere but on the deleted line. -/
def KeepsLines (e : LineEdit) (size first last : Nat) : Prop :=
  match e.change with
  | .insert => last + 1 ≠ size
  | .delete => ¬ (first = e.index ∧ last = e.index)

instance (first last : Nat) : Decidable (e.KeepsLines size first last) := by
  unfold KeepsLines
  split <;> infer_instance

/-- A lone index that is not lost moves like a cell. -/
theorem moveIndex_of_adjustIndex
    (adjusted : adjustIndex limit e.change e.index .lone p = some p') :
    e.moveIndex p = some p' := by
  unfold adjustIndex at adjusted
  unfold moveIndex
  grind

/-- A lone index moves like a cell that stays on the grid. -/
theorem adjustIndex_of_moveIndex (moved : e.moveIndex p = some p') (grid : p' < limit) :
    adjustIndex limit e.change e.index .lone p = some p' := by
  unfold moveIndex at moved
  unfold adjustIndex
  grind

end Index

/-! ### Both axes -/

variable {lines : Axis → Nat} {r r' first second : Reference} {p : Nat} {a b : Address}

/-- Whether an edit keeps a range of a sheet with so many lines along each axis. -/
def Keeps (e : LineEdit) (lines : Axis → Nat) (r : Range) : Prop :=
  e.KeepsLines (lines e.axis) (r.first.along e.axis) (r.last.along e.axis)

instance (r : Range) : Decidable (e.Keeps lines r) :=
  inferInstanceAs (Decidable (e.KeepsLines _ _ _))

theorem keeps_rectangle : e.Keeps lines (first.rectangle second) ↔
    e.KeepsLines (lines e.axis) (min (first.along e.axis) (second.along e.axis))
      (max (first.along e.axis) (second.along e.axis)) := by
  unfold Keeps
  cases e.axis <;> rfl

/-- The ends of a kept range stay inside the extent, and they cover the moved lines. -/
theorem exists_adjustEnds (relative : first.fixedOn e.axis = false)
    (relative' : second.fixedOn e.axis = false) (inside : first.along e.axis < lines e.axis)
    (inside' : second.along e.axis < lines e.axis) (grid : lines e.axis ≤ e.axis.limit)
    (keeps : e.Keeps lines (first.rectangle second)) :
    ∃ p q, e.adjustEnds first second = some (p, q) ∧ p < lines e.axis ∧ q < lines e.axis ∧
      ∀ i j, e.moveIndex i = some j → (min p q ≤ j ∧ j ≤ max p q ↔
        min (first.along e.axis) (second.along e.axis) ≤ i ∧
          i ≤ max (first.along e.axis) (second.along e.axis)) := by
  rw [keeps_rectangle, KeepsLines] at keeps
  obtain ⟨axis, change, line⟩ := e
  cases change with
  | insert =>
      have stays : ¬ (first.PushedOff axis line ∨ second.PushedOff axis line ∨
          first.MovesPast second axis line) := by
        simp only [Reference.PushedOff, Reference.MovesPast, relative']
        grind
      rw [adjustEnds_insert, if_neg stays, relative, relative']
      refine ⟨_, _, rfl, ?_, ?_, fun i j => inserted_covers⟩
      · unfold inserted
        grind
      · unfold inserted
        grind
  | delete =>
      have left : ¬ (first.along axis = line ∧ second.along axis = line) := by
        rintro ⟨level, level'⟩
        exact keeps (by simp [level, level'])
      rw [adjustEnds_delete relative relative', if_neg left]
      refine ⟨_, _, rfl, ?_, ?_, fun i j => deleted_covers left⟩
      · unfold deleted
        grind
      · unfold deleted
        grind

/-- An end with a new index along the axis of the edit stays inside the extent along both axes. -/
theorem placed_inside (inside : ∀ axis, r.along axis < lines axis) (below : p < lines e.axis) :
    ∀ axis, (r.placed e.axis p).along axis < lines axis := by
  intro axis
  by_cases h : axis = e.axis
  · subst h
    rwa [Reference.along_placed_self]
  · rw [Reference.along_placed_of_ne h]
    exact inside axis

/-- A relative reference that is not lost points at the moved cell. -/
theorem move_of_adjust (relative : r.fixedOn e.axis = false) (adjusted : r.adjust e = some r') :
    e.move r.address = some r'.address := by
  rw [adjust_eq, adjustAlong_self relative, Option.map_eq_some_iff] at adjusted
  obtain ⟨p, index, rfl⟩ := adjusted
  exact move_placed (moveIndex_of_adjustIndex index)

/-- A relative reference goes where its cell goes, if this is on the grid. -/
theorem adjust_of_move (relative : r.fixedOn e.axis = false) (moved : e.move r.address = some b)
    (grid : b.along e.axis < e.axis.limit) : r.adjust e = some { r with address := b } := by
  have along : e.moveIndex (r.along e.axis) = some (b.along e.axis) :=
    (moveAlong_self _).symm.trans (move_eq_some_iff.mp moved e.axis)
  have target : (r.placed e.axis (b.along e.axis)).address = b :=
    Option.some.inj ((move_placed along).symm.trans moved)
  rw [adjust_eq, adjustAlong_self relative, adjustIndex_of_moveIndex along grid, Option.map_some,
    Reference.placed_eq, target]

/-- A cell that an edit keeps moves inside the extent. -/
theorem exists_move (inside : ∀ axis, a.along axis < lines axis)
    (keeps : e.Keeps lines (Range.single a)) :
    ∃ b, e.move a = some b ∧ ∀ axis, b.along axis < lines axis := by
  apply (exists_move_inside_iff inside).mpr
  change e.KeepsLines (lines e.axis) (a.along e.axis) (a.along e.axis) at keeps
  unfold KeepsLines at keeps
  unfold closes pushesPast
  grind

/-- A relative reference that an edit keeps points at the moved cell afterwards. -/
theorem exists_adjust (relative : ∀ axis, r.fixedOn axis = false)
    (inside : ∀ axis, r.along axis < lines axis) (grid : ∀ axis, lines axis ≤ axis.limit)
    (keeps : e.Keeps lines (Range.single r.address)) :
    ∃ r', r.adjust e = some r' ∧ (∀ axis, r'.along axis < lines axis) ∧
      e.move r.address = some r'.address := by
  obtain ⟨b, moved, below⟩ := exists_move inside keeps
  have adjusted : r.adjust e = some { r with address := b } :=
    adjust_of_move (relative e.axis) moved ((below e.axis).trans_le (grid e.axis))
  exact ⟨_, adjusted, below, moved⟩

/-- A relative range that an edit keeps covers the moved cells of the old range afterwards. -/
theorem exists_adjustRange (relative : ∀ axis, first.fixedOn axis = false)
    (relative' : ∀ axis, second.fixedOn axis = false)
    (inside : ∀ axis, first.along axis < lines axis)
    (inside' : ∀ axis, second.along axis < lines axis) (grid : ∀ axis, lines axis ≤ axis.limit)
    (keeps : e.Keeps lines (first.rectangle second)) :
    ∃ a b, first.adjustRange second e = some (a, b) ∧ (∀ axis, a.along axis < lines axis) ∧
      (∀ axis, b.along axis < lines axis) ∧ ∀ x y, e.move x = some y →
        ((a.rectangle b).contains y ↔ (first.rectangle second).contains x) := by
  obtain ⟨p, q, ends, below, below', covers⟩ := exists_adjustEnds (relative e.axis)
    (relative' e.axis) (inside e.axis) (inside' e.axis) (grid e.axis) keeps
  refine ⟨first.placed e.axis p, second.placed e.axis q, ?_, placed_inside inside below,
    placed_inside inside' below', fun x y moved => contains_placed moved covers⟩
  rw [adjustRange_eq, ends, Option.map_some]

/-! ### The cells of a range -/

/-- Moving the cells of a range leaves the cells of the moved range, up to an inserted line. -/
theorem filterMap_move_cells {r r' : Range}
    (covers : ∀ x y, e.move x = some y → (r'.contains y ↔ r.contains x)) :
    r.cells.filterMap e.move = r'.cells.filter fun y => !e.opens y := by
  have sorted : (r.cells.filterMap e.move).Pairwise Address.Before :=
    r.pairwise_cells.filterMap e.move fun _ _ before _ ha _ hb => move_before ha hb before
  refine sorted.eq_of_mem_iff (r'.pairwise_cells.filter _) fun y => ?_
  rw [List.mem_filterMap, List.mem_filter, Range.mem_cells, Bool.not_eq_true', ← exists_move_iff]
  constructor
  · rintro ⟨x, hx, moved⟩
    exact ⟨(covers x y moved).mpr (Range.mem_cells.mp hx), x, moved⟩
  · rintro ⟨covered, x, moved⟩
    exact ⟨x, Range.mem_cells.mpr ((covers x y moved).mp covered), moved⟩

end LineEdit

end Spreadsheet
