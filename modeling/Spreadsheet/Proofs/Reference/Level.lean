import Spreadsheet.Proofs.Reference.Ends

/-!
# Ends on one line

The ends of a range may be written in either order, because the edge on which an end lies is decided
by its index. Two ends on one line are the exception: the first one is taken for the near end. This
makes no difference as long as an edit treats both alike. If one of them is fixed and the edit moves
the other one, or deletes the line under it, the range counts as crossed in one of the two orders
and is lost, and is kept in the other one.

So an insertion, which takes no cell away, may lose a range although both of its ends stay on the
grid.
-/

namespace Spreadsheet

namespace Reference

variable {p q p' q' : Nat}

/-- Ends on different lines are on the same edges in either order. -/
theorem edges_swap (apart : p ≠ q) : edges q p = (edges p q).swap := by
  unfold edges
  grind

theorem crossed_swap (apart : p ≠ q) : crossed q p q' p' = crossed p q p' q' := by
  unfold crossed
  grind

end Reference

namespace LineEdit

variable {e : LineEdit} {axis : Axis} {a b r : Reference} {line : Nat}

/-! ### The order of the ends -/

/-- Whether one of two ends on a line is fixed, and an edit moves the other one on the grid or takes
the line away under it. -/
def PullsApart (e : LineEdit) (a b : Reference) : Prop :=
  a.along e.axis = b.along e.axis ∧ a.fixedOn e.axis ≠ b.fixedOn e.axis ∧
    e.index ≤ a.along e.axis ∧ (e.change = .insert → a.along e.axis + 1 < e.axis.limit)

instance (a b : Reference) : Decidable (e.PullsApart a b) :=
  inferInstanceAs (Decidable (_ ∧ _))

theorem adjustEnds_swap_of_ne (apart : a.along e.axis ≠ b.along e.axis) :
    e.adjustEnds b a = (e.adjustEnds a b).map Prod.swap := by
  simp only [adjustEnds, Reference.edges_swap apart, Prod.fst_swap, Prod.snd_swap]
  cases e.adjustAlong e.axis (Reference.edges (a.along e.axis) (b.along e.axis)).1 a with
  | none => cases e.adjustAlong e.axis _ b <;> rfl
  | some p =>
      cases e.adjustAlong e.axis (Reference.edges (a.along e.axis) (b.along e.axis)).2 b with
      | none => rfl
      | some q =>
          simp only [Reference.crossed_swap apart]
          split <;> rfl

/-- Of two ends on one line the first one is the near end, and they count as crossed if the second
one comes before it. -/
theorem adjustEnds_of_level (level : a.along e.axis = b.along e.axis) : e.adjustEnds a b =
    (e.adjustAlong e.axis .near a).bind fun p =>
      (e.adjustAlong e.axis .far b).bind fun q => if q < p then none else some (p, q) := by
  have edges : Reference.edges (a.along e.axis) (b.along e.axis) = (.near, .far) :=
    if_pos (Nat.le_of_eq level)
  rw [adjustEnds, edges]
  cases e.adjustAlong e.axis .near a with
  | none => rfl
  | some p =>
      cases e.adjustAlong e.axis .far b with
      | none => rfl
      | some q =>
          have crossed : Reference.crossed (a.along e.axis) (b.along e.axis) p q = decide (q < p) := by
            unfold Reference.crossed
            grind
          simp [crossed]

/-- Two ends on one line that an edit does not pull apart are moved alike, or not at all. -/
theorem adjustEnds_swap_of_level (level : a.along e.axis = b.along e.axis)
    (together : ¬ e.PullsApart a b) : e.adjustEnds b a = (e.adjustEnds a b).map Prod.swap := by
  rw [adjustEnds_of_level level, adjustEnds_of_level level.symm]
  unfold PullsApart at together
  unfold adjustAlong adjustIndex
  rw [level] at together ⊢
  cases change : e.change with
  | insert => cases fixed : a.fixedOn e.axis <;> cases fixed' : b.fixedOn e.axis <;> grind
  | delete => cases fixed : a.fixedOn e.axis <;> cases fixed' : b.fixedOn e.axis <;> grind

/-- Two ends that an edit pulls apart are lost in one order and not in the other: an insertion loses
them if the relative end is written first, and a deletion if the fixed one is. -/
theorem PullsApart.adjustEnds_eq_none_iff (apart : e.PullsApart a b) :
    e.adjustEnds a b = none ↔ (a.fixedOn e.axis = true ↔ e.change = .delete) := by
  obtain ⟨level, differ, behind, room⟩ := apart
  rw [adjustEnds_of_level level]
  unfold adjustAlong adjustIndex
  rw [level] at behind room ⊢
  -- The relative end moves on or retreats, or, being the near end on the deleted line, stays.
  cases change : e.change with
  | insert => cases fixed : a.fixedOn e.axis <;> cases fixed' : b.fixedOn e.axis <;> grind
  | delete => cases fixed : a.fixedOn e.axis <;> cases fixed' : b.fixedOn e.axis <;> grind

theorem PullsApart.symm (apart : e.PullsApart a b) : e.PullsApart b a := by
  obtain ⟨level, differ, behind, room⟩ := apart
  exact ⟨level.symm, differ.symm, level ▸ behind, level ▸ room⟩

/-- Which of two orders loses the range depends on the end that is written first. -/
theorem PullsApart.adjustEnds_ne (apart : e.PullsApart a b) :
    e.adjustEnds b a ≠ (e.adjustEnds a b).map Prod.swap := by
  intro same
  have lost : e.adjustEnds b a = none ↔ e.adjustEnds a b = none := by
    rw [same, Option.map_eq_none_iff]
  rw [apart.adjustEnds_eq_none_iff, apart.symm.adjustEnds_eq_none_iff] at lost
  have differ : a.fixedOn e.axis ≠ b.fixedOn e.axis := apart.2.1
  grind

theorem adjustEnds_swap_iff :
    e.adjustEnds b a = (e.adjustEnds a b).map Prod.swap ↔ ¬ e.PullsApart a b := by
  constructor
  · intro same apart
    exact apart.adjustEnds_ne same
  · intro together
    by_cases level : a.along e.axis = b.along e.axis
    · exact adjustEnds_swap_of_level level together
    · exact adjustEnds_swap_of_ne level

/-- The indices along the axis of the edit tell two outcomes apart. -/
theorem placed_ends_injective : Function.Injective fun moved : Nat × Nat =>
    (a.placed axis moved.1, b.placed axis moved.2) := by
  rintro ⟨p, q⟩ ⟨p', q'⟩ same
  rw [Prod.mk.injEq] at same
  have first := congrArg (·.along axis) same.1
  have second := congrArg (·.along axis) same.2
  simp only [Reference.along_placed_self] at first second
  rw [first, second]

/-- It makes no difference in which order the ends of a range are written, exactly unless the edit
pulls apart two ends on one line. Then one order loses the range: that with the relative end first
if a line is inserted, and that with the fixed end first if one is deleted. -/
theorem adjustRange_swap_iff (e : LineEdit) (a b : Reference) :
    (b.adjustRange a e = (a.adjustRange b e).map Prod.swap ↔ ¬ e.PullsApart a b) ∧
    (e.PullsApart a b →
      (a.adjustRange b e = none ↔ (a.fixedOn e.axis = true ↔ e.change = .delete))) := by
  have swapped : (a.adjustRange b e).map Prod.swap =
      ((e.adjustEnds a b).map Prod.swap).map fun moved =>
        (b.placed e.axis moved.1, a.placed e.axis moved.2) := by
    rw [adjustRange_eq, Option.map_map, Option.map_map]
    rfl
  constructor
  · rw [swapped, adjustRange_eq, (Option.map_injective placed_ends_injective).eq_iff]
    exact adjustEnds_swap_iff
  · intro apart
    rw [adjustRange_eq, Option.map_eq_none_iff]
    exact apart.adjustEnds_eq_none_iff

/-- A row inserted above them turns the ends `A$2:A2` into `A$2:A3`, but `A2:A$2` is lost. -/
theorem not_adjustRange_swap_level : ¬ ∀ (a b : Reference) (e : LineEdit),
    b.adjustRange a e = (a.adjustRange b e).map Prod.swap := by
  intro swap
  exact absurd (swap ⟨⟨1, 0⟩, false, true⟩ ⟨⟨1, 0⟩, false, false⟩ ⟨.row, .insert, 0⟩) (by decide)

/-! ### What an insertion loses -/

/-- An insertion loses a lone reference exactly if it pushes it off the grid. It loses a range
exactly if it pushes an end off the grid, or moves the first end away from the second one, which is
fixed on the same line. -/
theorem insert_loses_iff (axis : Axis) (line : Nat) (r a b : Reference) :
    (r.adjust ⟨axis, .insert, line⟩ = none ↔ r.PushedOff axis line) ∧
    (a.adjustRange b ⟨axis, .insert, line⟩ = none ↔
      a.PushedOff axis line ∨ b.PushedOff axis line ∨ a.MovesPast b axis line) := by
  refine ⟨?_, adjustRange_insert_eq_none_iff⟩
  rw [adjust_eq, Option.map_eq_none_iff, adjustAlong_insert_eq]
  split
  · next lost => exact iff_of_true rfl lost
  · next kept => exact iff_of_false nofun kept

/-- A row inserted above them loses the ends `A2:A$2`, though none of them is on the last row. -/
theorem not_insert_loses_off_grid : ¬ ∀ (axis : Axis) (line : Nat) (a b : Reference),
    a.adjustRange b ⟨axis, .insert, line⟩ = none →
      a.PushedOff axis line ∨ b.PushedOff axis line := by
  intro keeps
  have lost := keeps .row 0 ⟨⟨1, 0⟩, false, false⟩ ⟨⟨1, 0⟩, false, true⟩ (by decide)
  exact absurd lost (by decide)

end LineEdit

end Spreadsheet
