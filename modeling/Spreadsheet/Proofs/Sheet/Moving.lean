import Spreadsheet.Proofs.Address.Moving
import Spreadsheet.Proofs.Sheet.Lookup

/-!
# Where the cells of an edited sheet come from

An edit of lines moves the cells one after the other into an empty sheet. No two cells move to
the same address, so what is found at an address does not depend on the order.
-/

namespace Spreadsheet

namespace Sheet

/-! ### The extent -/

/-- The number of lines of a sheet along an axis. -/
def lines (s : Sheet) : Axis → Nat
  | .row => s.rows
  | .col => s.cols

variable {s s' : Sheet} {e : LineEdit} {a b : Address} {c : Cell} {entry : Address × Cell}

theorem contains_iff_lines : s.contains a ↔ ∀ axis, a.along axis < s.lines axis := by
  rw [Axis.forall_iff]
  simp [contains, lines]

theorem lines_place (e : LineEdit) (s : Sheet) (entry : Address × Cell) :
    (place e s entry).lines = s.lines := by
  unfold place
  split
  · rfl
  · next target _ =>
      unfold set
      cases s.checkBounds target <;> rfl

theorem lines_foldl_place (entries : List (Address × Cell)) (s : Sheet) :
    (entries.foldl (place e) s).lines = s.lines := by
  induction entries generalizing s with
  | nil => rfl
  | cons entry entries ih => rw [List.foldl_cons, ih, lines_place]

theorem checkBounds_eq_ok (s : Sheet) (a : Address) : s.checkBounds a = .ok () ↔ s.contains a := by
  unfold checkBounds contains
  split
  · simp; omega
  · split <;> simp <;> omega

theorem contains_eq_of_lines (h : s.lines = s'.lines) (a : Address) :
    s.contains a = s'.contains a := by
  rw [Bool.eq_iff_iff, contains_iff_lines, contains_iff_lines, h]

/-! ### Placing cells one by one -/

/-- A placed cell is found where the edit takes it, if that is inside the extent. -/
theorem get_place_of_moved (moved : e.move entry.1 = some b) (inside : s.contains b) :
    (place e s entry).get b = some (entry.2.adjust e) := by
  simp only [place, moved, set, (checkBounds_eq_ok s b).mpr inside, get]
  exact Std.ExtTreeMap.getElem?_insert_self

theorem get_place_of_unmoved (unmoved : e.move entry.1 ≠ some b) :
    (place e s entry).get b = s.get b := by
  unfold place
  split
  · rfl
  · next target moved =>
      have other : target ≠ b := by
        rintro rfl
        exact unmoved moved
      unfold set
      cases s.checkBounds target with
      | error fault => rfl
      | ok u =>
          simp only [get]
          rw [Std.ExtTreeMap.getElem?_insert, if_neg]
          rwa [Std.LawfulEqOrd.compare_eq_iff_eq]

theorem get_foldl_place_of_unmoved {entries : List (Address × Cell)}
    (unmoved : ∀ entry ∈ entries, e.move entry.1 ≠ some b) :
    (entries.foldl (place e) s).get b = s.get b := by
  induction entries generalizing s with
  | nil => rfl
  | cons entry entries ih =>
      rw [List.foldl_cons, ih fun other h => unmoved other (List.mem_cons_of_mem entry h),
        get_place_of_unmoved (unmoved entry List.mem_cons_self)]

/-- What an edit takes to an address is found there after all cells have been placed. -/
theorem get_foldl_place {entries : List (Address × Cell)}
    (distinct : entries.Pairwise fun x y => x.1 ≠ y.1) (mem : (a, c) ∈ entries)
    (moved : e.move a = some b) (inside : s.contains b) :
    (entries.foldl (place e) s).get b = some (c.adjust e) := by
  induction entries generalizing s with
  | nil => cases mem
  | cons entry entries ih =>
      obtain ⟨first, distinct⟩ := List.pairwise_cons.mp distinct
      rw [List.foldl_cons]
      rcases List.mem_cons.mp mem with rfl | mem
      · rw [get_foldl_place_of_unmoved, get_place_of_moved moved inside]
        intro other h same
        exact first other h (LineEdit.move_injective moved same)
      · exact ih distinct mem (by rwa [contains_eq_of_lines (lines_place e s entry)])

/-- A cell that an edit keeps inside the extent is found where the edit takes it. -/
theorem get_applyLineEdit (stored : s.get a = some c) (moved : e.move a = some b)
    (inside : (s.applyLineEdit e).contains b) : (s.applyLineEdit e).get b = some (c.adjust e) := by
  rw [applyLineEdit, contains_eq_of_lines (lines_foldl_place _ _)] at inside
  exact get_foldl_place s.pairwise_entries (mem_entries.mpr stored) moved inside

/-- Nothing is found where no cell moves to. -/
theorem get_applyLineEdit_of_unmoved (unmoved : ∀ a c, s.get a = some c → e.move a ≠ some b) :
    (s.applyLineEdit e).get b = none := by
  rw [applyLineEdit, get_foldl_place_of_unmoved]
  · simp [get, blank]
  · exact fun entry mem => unmoved entry.1 entry.2 (mem_entries.mp mem)

end Sheet

end Spreadsheet
