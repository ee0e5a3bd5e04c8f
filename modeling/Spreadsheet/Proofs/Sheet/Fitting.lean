import Spreadsheet.Proofs.Sheet.Moving
import Spreadsheet.Proofs.Sheet.Preservation

/-!
# Sheets that fit into the grid

The extent of a sheet lies in the grid and holds all of its cells. Every empty sheet is like that
and no edit changes it, whatever the edit stores and wherever it stores it.
-/

namespace Spreadsheet.Sheet

/-- Whether a sheet lies in the grid and its cells lie in its extent. -/
structure Fits (s : Sheet) : Prop where
  lines_pos : ∀ axis, 0 < s.lines axis
  lines_le : ∀ axis, s.lines axis ≤ axis.limit
  stored : ∀ a c, s.get a = some c → s.contains a

variable {s s' : Sheet} {a b : Address} {c : Cell}

theorem fits_blank (id name : String) (rows cols : Nat) : (blank id name rows cols).Fits where
  lines_pos axis := by
    cases axis <;> simp only [lines, blank, maxRows, maxCols] <;> omega
  lines_le axis := by
    cases axis <;> simp only [lines, blank, Axis.limit] <;> omega
  stored a c stored := by
    simp [blank, get] at stored

theorem Fits.set (h : s.Fits) (stores : s.set a c = .ok s') : s'.Fits := by
  unfold Sheet.set at stores
  split at stores
  · cases stores
  · next inside =>
      cases stores
      refine ⟨h.lines_pos, h.lines_le, fun b d stored => ?_⟩
      rw [get, Std.ExtTreeMap.getElem?_insert] at stored
      split at stored
      · next same =>
          rw [← Std.LawfulEqOrd.eq_of_compare same]
          exact (checkBounds_eq_ok s a).mp inside
      · exact h.stored b d stored

theorem fits_holding {rows cols : Nat} (inside : (holding rows cols a c).contains a) :
    (holding rows cols a c).Fits where
  lines_pos := (fits_blank "holding" "Holding" rows cols).lines_pos
  lines_le := (fits_blank "holding" "Holding" rows cols).lines_le
  stored b d stored := by
    obtain ⟨rfl, -⟩ := get_holding_eq_some_iff.mp stored
    exact inside

theorem Fits.remove (h : s.Fits) (a : Address) : (s.remove a).Fits := by
  refine ⟨h.lines_pos, h.lines_le, fun b d stored => ?_⟩
  rw [Sheet.remove, get, Std.ExtTreeMap.getElem?_erase] at stored
  split at stored
  · cases stored
  · exact h.stored b d stored

theorem invariant_fits : Invariant (fun _ => True) Fits where
  blank := fits_blank
  set h _ := h.set
  remove a h := h.remove a

theorem Fits.applyEdits (h : s.Fits) {edits : List Edit} (applied : s.applyEdits edits = .ok s') :
    s'.Fits :=
  invariant_fits.applyEdits (fun _ => trivial) h applied

theorem fits_applyLineEdit (s : Sheet) (e : LineEdit) : (s.applyLineEdit e).Fits :=
  invariant_fits.applyLineEdit fun _ _ => trivial

theorem Fits.contains_of_mem_formulas (h : s.Fits) (ha : a ∈ s.formulas) : s.contains a := by
  obtain ⟨source, tree, stored⟩ := mem_formulas.mp ha
  exact h.stored a _ stored

/-! ### Edited lines -/

variable {e : LineEdit}

/-- An edit of lines does not change the extent. -/
theorem Fits.lines_applyLineEdit (h : s.Fits) (e : LineEdit) :
    (s.applyLineEdit e).lines = s.lines := by
  rw [applyLineEdit, lines_foldl_place]
  funext axis
  have positive := h.lines_pos axis
  have small := h.lines_le axis
  cases axis <;> simp only [lines, blank, Axis.limit] at * <;> omega

theorem Fits.contains_applyLineEdit (h : s.Fits) (e : LineEdit) (b : Address) :
    (s.applyLineEdit e).contains b = s.contains b :=
  contains_eq_of_lines (h.lines_applyLineEdit e) b

/-- The cells of the edited sheet are the adjusted cells that an edit keeps inside the extent. -/
theorem Fits.get_applyLineEdit_eq_some_iff (h : s.Fits) : (s.applyLineEdit e).get b = some c ↔
    ∃ a d, s.get a = some d ∧ e.move a = some b ∧ s.contains b ∧ d.adjust e = c := by
  constructor
  · intro found
    by_cases image : ∃ a d, s.get a = some d ∧ e.move a = some b
    · obtain ⟨a, d, stored, moved⟩ := image
      have inside := (fits_applyLineEdit s e).stored b c found
      rw [get_applyLineEdit stored moved inside, Option.some.injEq] at found
      exact ⟨a, d, stored, moved, h.contains_applyLineEdit e b ▸ inside, found⟩
    · rw [get_applyLineEdit_of_unmoved] at found
      · cases found
      · exact fun a d stored moved => image ⟨a, d, stored, moved⟩
  · rintro ⟨a, d, stored, moved, inside, rfl⟩
    exact get_applyLineEdit stored moved (h.contains_applyLineEdit e b ▸ inside)

end Spreadsheet.Sheet
