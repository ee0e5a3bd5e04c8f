import Spreadsheet.Proofs.Address.Moving
import Spreadsheet.Proofs.Range.Cells
import Spreadsheet.Proofs.Reference.OneAxis
import Spreadsheet.Proofs.Reference.RoundTrip

/-!
# What becomes of the ends of a range

If both ends of a range are fixed along the axis of an edit, the range stays. If both are relative,
it follows the cells that it covers. An insertion takes the ends where it takes their cells, so the
range spans all of its cells again, and it is lost only if an end is pushed off the grid. A deletion
leaves the range exactly the cells that are left of it, and the range is lost only if there are
none. In all these cases the ends stay on their sides.

This rests on what the two changes make of the indices of both ends, which is said without the edges
by which it is computed.
-/

namespace Spreadsheet

/-- Whether a range is the smallest one that covers the addresses with a property. -/
def Range.Spans (r : Range) (p : Address → Prop) : Prop :=
  ∀ s : Range, (∀ c, r.contains c → s.contains c) ↔ ∀ c, p c → s.contains c

namespace Reference

variable {a b : Reference}

theorem contains_rectangle {c : Address} : (a.rectangle b).contains c ↔ ∀ axis,
    min (a.along axis) (b.along axis) ≤ c.along axis ∧
      c.along axis ≤ max (a.along axis) (b.along axis) := by
  rw [Range.contains_iff, Axis.forall_iff]
  rfl

theorem contains_rectangle_left : (a.rectangle b).contains a.address :=
  contains_rectangle.mpr fun _ => ⟨Nat.min_le_left _ _, Nat.le_max_left _ _⟩

theorem contains_rectangle_right : (a.rectangle b).contains b.address :=
  contains_rectangle.mpr fun _ => ⟨Nat.min_le_right _ _, Nat.le_max_right _ _⟩

/-- Whether an insertion pushes a reference off the grid: the reference is relative, and it names
the last line, or one past it, at or behind the inserted line. -/
def PushedOff (r : Reference) (axis : Axis) (line : Nat) : Prop :=
  r.fixedOn axis = false ∧ line ≤ r.along axis ∧ axis.limit ≤ r.along axis + 1

instance (r : Reference) (axis : Axis) (line : Nat) : Decidable (r.PushedOff axis line) :=
  inferInstanceAs (Decidable (_ ∧ _))

/-- Whether an insertion moves the first of two ends away from the second one, which is fixed on
the same line. -/
def MovesPast (a b : Reference) (axis : Axis) (line : Nat) : Prop :=
  a.along axis = b.along axis ∧ line ≤ a.along axis ∧ a.fixedOn axis = false ∧
    b.fixedOn axis = true

instance (a b : Reference) (axis : Axis) (line : Nat) : Decidable (a.MovesPast b axis line) :=
  inferInstanceAs (Decidable (_ ∧ _))

end Reference

namespace LineEdit

variable {e : LineEdit} {axis : Axis} {a b a' b' r : Reference} {i j p q line : Nat}
variable {fixed fixed' : Bool} {c x y : Address}

/-! ### Fixed ends -/

theorem adjustEnds_of_fixed (fixed : a.fixedOn e.axis = true) (fixed' : b.fixedOn e.axis = true) :
    e.adjustEnds a b = some (a.along e.axis, b.along e.axis) := by
  simp [adjustEnds, adjustAlong, fixed, fixed', crossed_self]

theorem adjustRange_of_fixed (fixed : a.fixedOn e.axis = true) (fixed' : b.fixedOn e.axis = true) :
    a.adjustRange b e = some (a, b) := by
  rw [adjustRange_eq, adjustEnds_of_fixed fixed fixed', Option.map_some, Reference.placed_along,
    Reference.placed_along]

/-! ### A line inserted -/

theorem adjustAlong_insert_eq (edge : Edge) : adjustAlong ⟨axis, .insert, line⟩ axis edge r =
    if r.PushedOff axis line then none
    else some (inserted (r.fixedOn axis) line (r.along axis)) := by
  unfold adjustAlong adjustIndex inserted Reference.PushedOff
  grind

/-- An insertion moves an end by one line at most, so it can pass an end on the same line only. -/
theorem crossed_inserted :
    Reference.crossed p q (inserted fixed line p) (inserted fixed' line q) = true ↔
      p = q ∧ line ≤ p ∧ fixed = false ∧ fixed' = true := by
  unfold Reference.crossed inserted
  grind

/-- What an insertion makes of the indices of any two ends. -/
theorem adjustEnds_insert : adjustEnds ⟨axis, .insert, line⟩ a b =
    if a.PushedOff axis line ∨ b.PushedOff axis line ∨ a.MovesPast b axis line then none
    else some (inserted (a.fixedOn axis) line (a.along axis),
      inserted (b.fixedOn axis) line (b.along axis)) := by
  simp only [adjustEnds, adjustAlong_insert_eq]
  by_cases lost : a.PushedOff axis line
  · simp [lost]
  · by_cases lost' : b.PushedOff axis line
    · simp [lost, lost']
    · simp [lost, lost', crossed_inserted, Reference.MovesPast]

theorem adjustRange_insert_eq_none_iff : a.adjustRange b ⟨axis, .insert, line⟩ = none ↔
    a.PushedOff axis line ∨ b.PushedOff axis line ∨ a.MovesPast b axis line := by
  rw [adjustRange_eq, Option.map_eq_none_iff, adjustEnds_insert]
  split
  · next lost => exact iff_of_true rfl lost
  · next kept => exact iff_of_false nofun kept

theorem moveIndex_insert (index : Nat) :
    moveIndex ⟨axis, .insert, line⟩ index = some (inserted false line index) := by
  simp [moveIndex, inserted]

/-- Between the ends are the lines that were between them before, and perhaps the inserted one. -/
theorem inserted_covers (shifted : moveIndex ⟨axis, .insert, line⟩ i = some j) :
    min (inserted false line p) (inserted false line q) ≤ j ∧
        j ≤ max (inserted false line p) (inserted false line q) ↔
      min p q ≤ i ∧ i ≤ max p q := by
  unfold moveIndex at shifted
  unfold inserted
  grind

/-! ### A line deleted -/

/-- Where a deletion takes one of two relative ends. An end on the deleted line stays if the range
goes on behind it, and retreats otherwise. -/
def deleted (line index other : Nat) : Nat :=
  if index < line ∨ index = line ∧ line < other then index else index - 1

theorem deleted_le_deleted (h : p ≤ q) : deleted line p q ≤ deleted line q p := by
  unfold deleted
  grind

/-- Between the ends are the lines that were between them before, without the deleted one. -/
theorem deleted_covers (left : ¬ (p = line ∧ q = line))
    (shifted : moveIndex ⟨axis, .delete, line⟩ i = some j) :
    min (deleted line p q) (deleted line q p) ≤ j ∧ j ≤ max (deleted line p q) (deleted line q p) ↔
      min p q ≤ i ∧ i ≤ max p q := by
  unfold moveIndex at shifted
  unfold deleted
  grind

/-- What a deletion makes of the indices of two relative ends. -/
theorem adjustEnds_delete (relative : a.fixedOn axis = false) (relative' : b.fixedOn axis = false) :
    adjustEnds ⟨axis, .delete, line⟩ a b =
      if a.along axis = line ∧ b.along axis = line then none
      else some (deleted line (a.along axis) (b.along axis),
        deleted line (b.along axis) (a.along axis)) := by
  simp only [adjustEnds, adjustAlong, adjustIndex, relative, relative', Reference.edges,
    Reference.crossed, deleted]
  grind

/-! ### Sides -/

/-- What an edit leaves alone of the two ends of a range: their dollar signs, their indices along
the other axis, and on which side of each other they are. -/
structure KeepsShape (e : LineEdit) (a b a' b' : Reference) : Prop where
  fixed : ∀ axis, a'.fixedOn axis = a.fixedOn axis ∧ b'.fixedOn axis = b.fixedOn axis
  still : ∀ axis, axis ≠ e.axis → a'.along axis = a.along axis ∧ b'.along axis = b.along axis
  sides : ∀ axis, (a.along axis ≤ b.along axis → a'.along axis ≤ b'.along axis) ∧
    (b.along axis ≤ a.along axis → b'.along axis ≤ a'.along axis)

theorem adjustEnds_sides (alike : a.fixedOn e.axis = b.fixedOn e.axis)
    (ends : e.adjustEnds a b = some (p, q)) :
    (a.along e.axis ≤ b.along e.axis → p ≤ q) ∧ (b.along e.axis ≤ a.along e.axis → q ≤ p) := by
  obtain ⟨axis, change, line⟩ := e
  cases fixed : a.fixedOn axis with
  | true =>
      rw [adjustEnds_of_fixed fixed (alike.symm.trans fixed)] at ends
      cases ends
      exact ⟨id, id⟩
  | false =>
      have fixed' : b.fixedOn axis = false := alike.symm.trans fixed
      cases change with
      | insert =>
          rw [adjustEnds_insert, fixed, fixed'] at ends
          split at ends
          · cases ends
          · cases ends
            exact ⟨inserted_le_inserted.mpr, inserted_le_inserted.mpr⟩
      | delete =>
          rw [adjustEnds_delete fixed fixed'] at ends
          split at ends
          · cases ends
          · cases ends
            exact ⟨deleted_le_deleted, deleted_le_deleted⟩

/-- Ends that are both fixed or both relative stay on their sides. -/
theorem keepsShape_of_adjustRange (alike : a.fixedOn e.axis = b.fixedOn e.axis)
    (moved : a.adjustRange b e = some (a', b')) : e.KeepsShape a b a' b' := by
  rw [adjustRange_eq, Option.map_eq_some_iff] at moved
  obtain ⟨⟨p, q⟩, ends, same⟩ := moved
  cases same
  refine ⟨fun axis => ?_, fun axis h => ?_, fun axis => ?_⟩
  · exact ⟨Reference.fixedOn_placed, Reference.fixedOn_placed⟩
  · exact ⟨Reference.along_placed_of_ne h, Reference.along_placed_of_ne h⟩
  · by_cases h : axis = e.axis
    · subst h
      rw [Reference.along_placed_self, Reference.along_placed_self]
      exact adjustEnds_sides alike ends
    · rw [Reference.along_placed_of_ne h, Reference.along_placed_of_ne h]
      exact ⟨id, id⟩

/-! ### Cells -/

/-- Whether an edit takes some cell of a range to an address. -/
def Image (e : LineEdit) (r : Range) (c : Address) : Prop :=
  ∃ x, r.contains x ∧ e.move x = some c

/-- Whether an edit takes a cell off the grid. -/
def PushesOff (e : LineEdit) (a : Address) : Prop :=
  ∃ c, e.move a = some c ∧ ∃ axis : Axis, axis.limit ≤ c.along axis

/-- An end whose index moves as a line does points at the moved cell. -/
theorem move_placed (moved : e.moveIndex (r.along e.axis) = some p) :
    e.move r.address = some (r.placed e.axis p).address := by
  rw [move_eq_some_iff]
  intro axis
  by_cases h : axis = e.axis
  · subst h
    rw [moveAlong_self]
    exact moved.trans (congrArg some Reference.along_placed_self.symm)
  · rw [moveAlong_of_ne h]
    exact congrArg some (Reference.along_placed_of_ne h).symm

/-- If the ends cover the moved lines along the axis of the edit, they cover the moved cells. -/
theorem contains_placed (moved : e.move x = some y)
    (covers : ∀ i j, e.moveIndex i = some j → (min p q ≤ j ∧ j ≤ max p q ↔
      min (a.along e.axis) (b.along e.axis) ≤ i ∧ i ≤ max (a.along e.axis) (b.along e.axis))) :
    ((a.placed e.axis p).rectangle (b.placed e.axis q)).contains y ↔
      (a.rectangle b).contains x := by
  rw [move_eq_some_iff] at moved
  rw [Reference.contains_rectangle, Reference.contains_rectangle]
  apply forall_congr'
  intro axis
  have along := moved axis
  by_cases h : axis = e.axis
  · subst h
    rw [moveAlong_self] at along
    rw [Reference.along_placed_self, Reference.along_placed_self]
    exact covers _ _ along
  · rw [moveAlong_of_ne h] at along
    rw [Reference.along_placed_of_ne h, Reference.along_placed_of_ne h, Option.some.inj along]

/-- An insertion takes a cell off the grid if it pushes off a relative reference to it. -/
theorem pushesOff_insert_iff (inside : r.InGrid) (relative : r.fixedOn axis = false) :
    PushesOff ⟨axis, .insert, line⟩ r.address ↔ r.PushedOff axis line := by
  have moved := move_placed (e := ⟨axis, .insert, line⟩) (moveIndex_insert (r.along axis))
  constructor
  · rintro ⟨c, came, axis', outside⟩
    obtain rfl := Option.some.inj (moved.symm.trans came)
    change axis'.limit ≤ (r.placed axis _).along axis' at outside
    by_cases h : axis' = axis
    · subst h
      have below := inside.along_lt axis'
      rw [Reference.along_placed_self, inserted] at outside
      exact ⟨relative, by grind, by grind⟩
    · rw [Reference.along_placed_of_ne h] at outside
      exact absurd (inside.along_lt axis') (Nat.not_lt.mpr outside)
  · rintro ⟨-, behind, last⟩
    refine ⟨_, moved, axis, ?_⟩
    change axis.limit ≤ (r.placed axis _).along axis
    rw [Reference.along_placed_self, inserted]
    grind

section Relative

variable (relative : a.fixedOn axis = false) (relative' : b.fixedOn axis = false)

include relative relative' in
/-- An insertion takes the ends of a range where it takes their cells. -/
theorem ends_of_insert (moved : a.adjustRange b ⟨axis, .insert, line⟩ = some (a', b')) :
    a' = a.placed axis (inserted false line (a.along axis)) ∧
      b' = b.placed axis (inserted false line (b.along axis)) := by
  rw [adjustRange_eq, Option.map_eq_some_iff] at moved
  obtain ⟨⟨p, q⟩, ends, same⟩ := moved
  rw [adjustEnds_insert, relative, relative'] at ends
  split at ends
  · cases ends
  · cases ends
    exact ⟨(Prod.mk.inj same).1.symm, (Prod.mk.inj same).2.symm⟩

include relative relative' in
/-- An insertion makes a range span what it covered, and no more. -/
theorem spans_of_insert (moved : a.adjustRange b ⟨axis, .insert, line⟩ = some (a', b')) :
    move ⟨axis, .insert, line⟩ a.address = some a'.address ∧
      move ⟨axis, .insert, line⟩ b.address = some b'.address ∧
      (a'.rectangle b').Spans (Image ⟨axis, .insert, line⟩ (a.rectangle b)) := by
  obtain ⟨rfl, rfl⟩ := ends_of_insert relative relative' moved
  have first := move_placed (e := ⟨axis, .insert, line⟩) (moveIndex_insert (a.along axis))
  have second := move_placed (e := ⟨axis, .insert, line⟩) (moveIndex_insert (b.along axis))
  refine ⟨first, second, fun s => ⟨fun covers c => ?_, fun covers c hc => ?_⟩⟩
  · rintro ⟨x, hx, came⟩
    exact covers c ((contains_placed came fun i j => inserted_covers).mpr hx)
  · -- Both ends are among the cells to be covered, and with them all that is between them.
    exact Range.contains_of_spanning (covers _ ⟨_, Reference.contains_rectangle_left, first⟩)
      (covers _ ⟨_, Reference.contains_rectangle_right, second⟩) hc

include relative relative' in
/-- A deletion loses a range exactly if the range covers nothing but the deleted line. -/
theorem adjustRange_delete_eq_none_iff : a.adjustRange b ⟨axis, .delete, line⟩ = none ↔
    ∀ c, (a.rectangle b).contains c → c.along axis = line := by
  rw [adjustRange_eq, Option.map_eq_none_iff, adjustEnds_delete relative relative']
  constructor
  · intro lost c hc
    have level : a.along axis = line ∧ b.along axis = line := by
      by_contra other
      rw [if_neg other] at lost
      cases lost
    have between := Reference.contains_rectangle.mp hc axis
    omega
  · intro covered
    exact if_pos ⟨covered _ Reference.contains_rectangle_left,
      covered _ Reference.contains_rectangle_right⟩

include relative relative' in
/-- A deletion leaves a range exactly the cells that are left of it. -/
theorem contains_of_delete (moved : a.adjustRange b ⟨axis, .delete, line⟩ = some (a', b')) :
    (a'.rectangle b').contains c ↔ Image ⟨axis, .delete, line⟩ (a.rectangle b) c := by
  rw [adjustRange_eq, Option.map_eq_some_iff] at moved
  obtain ⟨⟨p, q⟩, ends, same⟩ := moved
  rw [adjustEnds_delete relative relative'] at ends
  split at ends
  · cases ends
  · next left =>
      cases ends
      cases same
      have covers {x : Address} (came : move ⟨axis, .delete, line⟩ x = some c) :=
        contains_placed (e := ⟨axis, .delete, line⟩) came fun i j => deleted_covers left
      constructor
      · intro covered
        obtain ⟨x, came⟩ : ∃ x, move ⟨axis, .delete, line⟩ x = some c := exists_move_iff.mpr rfl
        exact ⟨x, (covers came).mp covered, came⟩
      · rintro ⟨x, hx, came⟩
        exact (covers came).mpr hx

end Relative

/-- A range of which both ends are fixed along the axis of an edit stays. If both are relative, the
range follows its cells: an insertion takes the ends where it takes their cells and spans all that
the range covered, unless that pushes an end off the grid; a deletion leaves exactly the cells that
are left, unless there are none. The ends keep their dollar signs, their other index and their
sides. -/
theorem adjustRange_follows_cells (e : LineEdit) (a b : Reference) (inside : a.InGrid)
    (inside' : b.InGrid) (alike : a.fixedOn e.axis = b.fixedOn e.axis) :
    (a.fixedOn e.axis = true → a.adjustRange b e = some (a, b)) ∧
    (a.fixedOn e.axis = false → e.change = .insert →
      (a.adjustRange b e = none ↔ e.PushesOff a.address ∨ e.PushesOff b.address) ∧
      ∀ a' b', a.adjustRange b e = some (a', b') →
        e.move a.address = some a'.address ∧ e.move b.address = some b'.address ∧
          (a'.rectangle b').Spans (e.Image (a.rectangle b))) ∧
    (a.fixedOn e.axis = false → e.change = .delete →
      (a.adjustRange b e = none ↔ ∀ c, (a.rectangle b).contains c → c.along e.axis = e.index) ∧
      ∀ a' b', a.adjustRange b e = some (a', b') →
        ∀ c, (a'.rectangle b').contains c ↔ e.Image (a.rectangle b) c) ∧
    ∀ a' b', a.adjustRange b e = some (a', b') → e.KeepsShape a b a' b' := by
  refine ⟨fun fixed => ?_, fun relative inserts => ?_, fun relative deletes => ?_, fun a' b' => ?_⟩
  · exact adjustRange_of_fixed fixed (alike.symm.trans fixed)
  · obtain ⟨axis, change, line⟩ := e
    obtain rfl : change = .insert := inserts
    have relative' : b.fixedOn axis = false := alike.symm.trans relative
    have together : ¬ a.MovesPast b axis line := fun past =>
      Bool.false_ne_true (relative'.symm.trans past.2.2.2)
    refine ⟨?_, fun a' b' => spans_of_insert relative relative'⟩
    rw [adjustRange_insert_eq_none_iff, pushesOff_insert_iff inside relative,
      pushesOff_insert_iff inside' relative']
    simp only [together, or_false]
  · obtain ⟨axis, change, line⟩ := e
    obtain rfl : change = .delete := deletes
    have relative' : b.fixedOn axis = false := alike.symm.trans relative
    exact ⟨adjustRange_delete_eq_none_iff relative relative',
      fun a' b' moved c => contains_of_delete relative relative' moved⟩
  · exact keepsShape_of_adjustRange alike

/-- The ends of `A4:$C2`, which are relative along the rows and not along the columns. -/
def crosswise : Reference × Reference :=
  (⟨⟨3, 0⟩, false, false⟩, ⟨⟨1, 2⟩, true, false⟩)

/-- Deleting the second row turns the range into `A3:$C2`, and inserting a row in front of the third
one turns it into `A5:$C2`. -/
theorem adjustRange_follows_cells_crosswise :
    (∀ c, (Reference.rectangle ⟨⟨2, 0⟩, false, false⟩ crosswise.2).contains c ↔
      Image ⟨.row, .delete, 1⟩ (crosswise.1.rectangle crosswise.2) c) ∧
    (Reference.rectangle ⟨⟨4, 0⟩, false, false⟩ crosswise.2).Spans
      (Image ⟨.row, .insert, 2⟩ (crosswise.1.rectangle crosswise.2)) ∧
    KeepsShape ⟨.row, .insert, 2⟩ crosswise.1 crosswise.2 ⟨⟨4, 0⟩, false, false⟩ crosswise.2 := by
  have inside : crosswise.1.InGrid := ⟨by decide, by decide⟩
  have inside' : crosswise.2.InGrid := ⟨by decide, by decide⟩
  obtain ⟨-, -, deleted, -⟩ :=
    adjustRange_follows_cells ⟨.row, .delete, 1⟩ crosswise.1 crosswise.2 inside inside' rfl
  obtain ⟨-, inserted, -, shape⟩ :=
    adjustRange_follows_cells ⟨.row, .insert, 2⟩ crosswise.1 crosswise.2 inside inside' rfl
  exact ⟨(deleted rfl rfl).2 _ _ (by decide), ((inserted rfl rfl).2 _ _ (by decide)).2.2,
    shape _ _ (by decide)⟩

end LineEdit

end Spreadsheet
