import Spreadsheet.Proofs.Address.Order
import Spreadsheet.Sheet.LineEdit

/-!
# Where an edit of lines takes addresses

An edit moves addresses along its own axis and leaves the other index alone. No two addresses move
to the same one, those that move keep their order, and they come to all addresses but those on an
inserted line. So an edit can also be read backwards: for every address it is known which one comes
there.
-/

namespace Spreadsheet

/-- An address may have any two indices. -/
theorem Address.exists_along (index : Axis → Nat) : ∃ a : Address, ∀ axis, a.along axis = index axis :=
  ⟨⟨index .row, index .col⟩, fun axis => by cases axis <;> rfl⟩

theorem Axis.forall_iff {p : Axis → Prop} : (∀ axis, p axis) ↔ p .row ∧ p .col :=
  ⟨fun h => ⟨h .row, h .col⟩, fun h axis => match axis with | .row => h.1 | .col => h.2⟩

namespace LineEdit

variable {e : LineEdit} {axis : Axis} {a a' b b' c : Address}

/-- Where an edit takes an index along an axis. -/
def moveAlong (e : LineEdit) (axis : Axis) (index : Nat) : Option Nat :=
  if axis = e.axis then e.moveIndex index else some index

theorem moveAlong_self (index : Nat) : e.moveAlong e.axis index = e.moveIndex index :=
  if_pos rfl

theorem moveAlong_of_ne (h : axis ≠ e.axis) (index : Nat) : e.moveAlong axis index = some index :=
  if_neg h

theorem moveAlong_lt {m n m' n' : Nat} (hm : e.moveAlong axis m = some m')
    (hn : e.moveAlong axis n = some n') (less : m < n) : m' < n' := by
  rw [moveAlong, moveIndex] at hm hn
  grind

/-- An address moves along each axis on its own. -/
theorem move_eq_some_iff : e.move a = some b ↔
    ∀ axis, e.moveAlong axis (a.along axis) = some (b.along axis) := by
  obtain ⟨row, col⟩ := a
  obtain ⟨row', col'⟩ := b
  obtain ⟨axis, change, index⟩ := e
  rw [Axis.forall_iff]
  cases axis with
  | row => simp [move, moveAlong]
  | col => simpa [move, moveAlong] using and_comm

/-- Cells keep their order. -/
theorem move_before (ha : e.move a = some a') (hb : e.move b = some b') (before : a.Before b) :
    a'.Before b' := by
  rw [move_eq_some_iff, Axis.forall_iff] at ha hb
  rw [Address.before_iff] at before ⊢
  rcases before with row | ⟨row, col⟩
  · exact .inl (moveAlong_lt ha.1 hb.1 row)
  · refine .inr ⟨?_, moveAlong_lt ha.2 hb.2 col⟩
    have same : some a'.row = some b'.row := by
      rw [← Address.along_row, ← Address.along_row, ← ha.1, ← hb.1, Address.along_row,
        Address.along_row, row]
    exact Option.some.inj same

/-- Whether an address lies on a line that an edit deletes. -/
def closes (e : LineEdit) (a : Address) : Bool :=
  e.change = .delete && a.along e.axis = e.index

theorem moveIndex_eq_none_iff {i : Nat} :
    e.moveIndex i = none ↔ e.change = .delete ∧ i = e.index := by
  unfold moveIndex
  grind

theorem move_eq_none_iff : e.move a = none ↔ e.closes a = true := by
  rw [closes, Bool.and_eq_true, decide_eq_true_iff, decide_eq_true_iff, move]
  cases e.axis with
  | row => exact Option.map_eq_none_iff.trans moveIndex_eq_none_iff
  | col => exact Option.map_eq_none_iff.trans moveIndex_eq_none_iff

/-! ### Where addresses come from -/

/-- The line that an edit takes to a line of its own axis; nothing comes to an inserted line. -/
def originIndex (e : LineEdit) (index : Nat) : Option Nat :=
  match e.change with
  | .insert =>
    if index < e.index then some index
    else if index = e.index then none
    else some (index - 1)
  | .delete => some (if index < e.index then index else index + 1)

/-- The address that an edit takes to an address. -/
def origin (e : LineEdit) (b : Address) : Option Address :=
  match e.axis with
  | .row => (e.originIndex b.row).map fun row => { b with row := row }
  | .col => (e.originIndex b.col).map fun col => { b with col := col }

theorem moveIndex_eq_some_iff {i j : Nat} : e.moveIndex i = some j ↔ e.originIndex j = some i := by
  unfold moveIndex originIndex
  cases e.change with
  | insert => grind
  | delete => grind

theorem move_eq_some_iff_origin : e.move a = some b ↔ e.origin b = some a := by
  obtain ⟨row, col⟩ := a
  obtain ⟨row', col'⟩ := b
  unfold move origin
  cases e.axis with
  | row => simp [moveIndex_eq_some_iff, @eq_comm _ col' col]
  | col => simp [moveIndex_eq_some_iff, @eq_comm _ row' row]

/-- No two addresses move to the same one. -/
theorem move_injective (ha : e.move a = some c) (hb : e.move b = some c) : a = b := by
  rw [move_eq_some_iff_origin] at ha hb
  exact Option.some.inj (ha.symm.trans hb)

/-- Whether an address lies on a line that an edit inserts. -/
def opens (e : LineEdit) (b : Address) : Bool :=
  e.change = .insert && b.along e.axis = e.index

theorem originIndex_eq_none_iff {j : Nat} :
    e.originIndex j = none ↔ e.change = .insert ∧ j = e.index := by
  unfold originIndex
  grind

theorem origin_eq_none_iff : e.origin b = none ↔ e.opens b = true := by
  rw [opens, Bool.and_eq_true, decide_eq_true_iff, decide_eq_true_iff, origin]
  cases e.axis with
  | row => exact Option.map_eq_none_iff.trans originIndex_eq_none_iff
  | col => exact Option.map_eq_none_iff.trans originIndex_eq_none_iff

/-- An edit takes some address to every address that it does not insert. -/
theorem exists_move_iff : (∃ a, e.move a = some b) ↔ e.opens b = false := by
  simp only [move_eq_some_iff_origin, ← Option.ne_none_iff_exists']
  rw [ne_eq, origin_eq_none_iff, Bool.not_eq_true]

/-! ### Addresses that fall out of a sheet -/

section Extent

variable {lines : Axis → Nat}

/-- Whether an edit pushes an address past the end of a sheet with so many lines along each axis:
the address lies on the last line, and a line is inserted there or in front of it. -/
def pushesPast (e : LineEdit) (lines : Axis → Nat) (a : Address) : Bool :=
  e.change = .insert && e.index ≤ a.along e.axis && a.along e.axis + 1 = lines e.axis

theorem pushesPast_eq_false (moved : e.move a = some b) (below : b.along e.axis < lines e.axis) :
    e.pushesPast lines a = false := by
  have along := move_eq_some_iff.mp moved e.axis
  rw [moveAlong_self, moveIndex] at along
  unfold pushesPast
  grind

/-- The addresses of a sheet that an edit takes to one of its addresses. -/
theorem exists_move_inside_iff (inside : ∀ axis, a.along axis < lines axis) :
    (∃ b, e.move a = some b ∧ ∀ axis, b.along axis < lines axis) ↔
      e.closes a = false ∧ e.pushesPast lines a = false := by
  constructor
  · rintro ⟨b, moved, below⟩
    refine ⟨?_, pushesPast_eq_false moved (below e.axis)⟩
    rw [← Bool.not_eq_true, ← move_eq_none_iff, moved]
    nofun
  · rintro ⟨kept, short⟩
    rw [← Bool.not_eq_true, ← move_eq_none_iff, ← ne_eq, Option.ne_none_iff_exists'] at kept
    obtain ⟨b, moved⟩ := kept
    refine ⟨b, moved, fun axis => ?_⟩
    have along := move_eq_some_iff.mp moved axis
    by_cases h : axis = e.axis
    · subst h
      have start := inside e.axis
      rw [moveAlong_self, moveIndex] at along
      grind [pushesPast]
    · rw [moveAlong_of_ne h, Option.some.injEq] at along
      exact along ▸ inside axis

end Extent

/-! ### Two edits -/

/-- Edits along different axes can be made in either order. The address in between shares each of
its indices with the first address or with the last one. -/
theorem exists_move_comm {e' : LineEdit} (different : e.axis ≠ e'.axis) (first : e.move a = some b)
    (second : e'.move b = some c) : ∃ b', e'.move a = some b' ∧ e.move b' = some c ∧
      ∀ axis, b'.along axis = a.along axis ∨ b'.along axis = c.along axis := by
  simp only [move_eq_some_iff] at first second ⊢
  have still (axis : Axis) (h : axis ≠ e.axis) : a.along axis = b.along axis :=
    Option.some.inj ((moveAlong_of_ne h _).symm.trans (first axis))
  have still' (axis : Axis) (h : axis ≠ e'.axis) : b.along axis = c.along axis :=
    Option.some.inj ((moveAlong_of_ne h _).symm.trans (second axis))
  obtain ⟨b', along⟩ := Address.exists_along fun axis =>
    if axis = e.axis then a.along axis else c.along axis
  refine ⟨b', fun axis => ?_, fun axis => ?_, fun axis => ?_⟩
  · rw [along]
    split
    · next same =>
        subst same
        exact moveAlong_of_ne different _
    · next other =>
        rw [still axis other]
        exact second axis
  · rw [along]
    split
    · next same =>
        subst same
        rw [first, still' _ different]
    · next other => exact moveAlong_of_ne other _
  · rw [along]
    split
    · exact .inl rfl
    · exact .inr rfl

/-- Deleting a line that has just been inserted takes every address back. -/
theorem move_delete_of_insert {line : Nat} (h : move ⟨axis, .insert, line⟩ a = some b) :
    move ⟨axis, .delete, line⟩ b = some a := by
  rw [move_eq_some_iff] at h ⊢
  intro axis'
  have along := h axis'
  unfold moveAlong moveIndex at along ⊢
  grind

end LineEdit

end Spreadsheet
