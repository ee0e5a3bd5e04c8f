import Spreadsheet.Proofs.Sheet.Fitting
import Spreadsheet.Proofs.Sheet.Survival

/-!
# Edits of rows and edits of columns commute

An edit of rows and an edit of columns can be made in either order. Cells go to the same places
and formulas end up with the same text, although the text in between may be another one, and may
even be no formula. If it is none, the text after both edits is none either, because a range that
the first edit tears apart is not mended by the second. The wording of such an error may depend on
the order: it is the first edit that spoils the formula.
-/

namespace Spreadsheet

variable {e e' : LineEdit}

namespace Formula

theorem adjusting_andThen_comm (different : e.axis ≠ e'.axis) :
    (adjusting e).andThen (adjusting e') = (adjusting e').andThen (adjusting e) := by
  rw [Redirection.andThen, Redirection.andThen, Redirection.mk.injEq]
  exact ⟨funext fun r => LineEdit.adjust_comm different,
    funext fun a => funext fun b => LineEdit.adjustRange_comm different⟩

/-- Edits of different axes change a text in the same way in either order, whatever it is. -/
theorem adjust_comm (different : e.axis ≠ e'.axis) (text : String) :
    adjust (adjust text e) e' = adjust (adjust text e') e := by
  rw [adjust_adjust, adjust_adjust, adjusting_andThen_comm different]

end Formula

namespace Cell

variable {c : Cell}

/-- Whether two cells are the same up to the wording of a parse error. -/
def SameUpToWording (c d : Cell) : Prop :=
  c = d ∨ ∃ message message', c = error .parse message ∧ d = error .parse message'

/-- Edits of different axes leave the same cell in either order. -/
theorem FromText.adjust_comm (h : c.FromText) (different : e.axis ≠ e'.axis) :
    SameUpToWording ((c.adjust e).adjust e') ((c.adjust e').adjust e) := by
  cases c with
  | literal v => exact .inl rfl
  | error code message => exact .inl rfl
  | formula text tree =>
      have parsed := h text tree rfl
      have same := Formula.adjust_comm different text
      by_cases again : ∃ tree',
          Formula.parse (Formula.adjust (Formula.adjust text e) e') = .ok tree'
      · left
        obtain ⟨tree', again⟩ := again
        rw [adjust_adjust_of_parse parsed again, same]
        rw [same] at again
        exact (adjust_adjust_of_parse parsed again).symm
      · right
        obtain ⟨message, failed⟩ := adjust_adjust_of_no_formula text tree again
        rw [same] at again
        obtain ⟨message', failed'⟩ := adjust_adjust_of_no_formula text tree again
        exact ⟨message, message', failed, failed'⟩

end Cell

namespace Sheet

variable {s : Sheet} {b : Address} {c : Cell}

/-- What is found after one order of two edits is found after the other one. -/
theorem exists_get_comm (fits : s.Fits) (fromText : s.FromText) (different : e.axis ≠ e'.axis)
    (found : ((s.applyLineEdit e).applyLineEdit e').get b = some c) :
    ∃ c', ((s.applyLineEdit e').applyLineEdit e).get b = some c' ∧ c.SameUpToWording c' := by
  obtain ⟨m, d, between, moved', inside, rfl⟩ :=
    (fits_applyLineEdit s e).get_applyLineEdit_eq_some_iff.mp found
  obtain ⟨a, c, stored, moved, -, rfl⟩ := fits.get_applyLineEdit_eq_some_iff.mp between
  rw [fits.contains_applyLineEdit] at inside
  obtain ⟨m', other', other, along⟩ := LineEdit.exists_move_comm different moved moved'
  have inside' : s.contains m' := by
    have start := contains_iff_lines.mp (fits.stored a c stored)
    have stop := contains_iff_lines.mp inside
    refine contains_iff_lines.mpr fun axis => ?_
    rcases along axis with same | same
    · exact same ▸ start axis
    · exact same ▸ stop axis
  refine ⟨(c.adjust e').adjust e, ?_, (fromText a c stored).adjust_comm different⟩
  refine (fits_applyLineEdit s e').get_applyLineEdit_eq_some_iff.mpr
    ⟨m', c.adjust e', ?_, other, ?_, rfl⟩
  · exact fits.get_applyLineEdit_eq_some_iff.mpr ⟨a, c, stored, other', inside', rfl⟩
  · rwa [fits.contains_applyLineEdit]

/-- An edit of rows and an edit of columns leave the same addresses and the same cells in either
order, up to the wording of parse errors. -/
theorem applyLineEdit_comm (s : Sheet) (fits : s.Fits) (fromText : s.FromText) (r c : LineEdit)
    (row : r.axis = .row) (col : c.axis = .col) (a : Address) :
    Option.Rel Cell.SameUpToWording (((s.applyLineEdit r).applyLineEdit c).get a)
      (((s.applyLineEdit c).applyLineEdit r).get a) := by
  have different : r.axis ≠ c.axis := by simp [row, col]
  cases found : ((s.applyLineEdit r).applyLineEdit c).get a with
  | some d =>
      obtain ⟨d', found', same⟩ := exists_get_comm fits fromText different found
      rw [found']
      exact .some same
  | none =>
      cases found' : ((s.applyLineEdit c).applyLineEdit r).get a with
      | none => exact .none
      | some d =>
          obtain ⟨d', absent, -⟩ := exists_get_comm fits fromText different.symm found'
          rw [found] at absent
          cases absent

end Sheet

/-! ### An error with two wordings -/

/-- A range whose ends are lost with the first row and with the second column. -/
def Formula.loose : String :=
  "=A1 : B3"

/-- A sheet with this formula. -/
def Sheet.loose : Sheet :=
  holding 5 5 ⟨3, 3⟩ (.ofFormula Formula.loose)

theorem Sheet.get_loose : Sheet.loose.get ⟨3, 3⟩ = some (.formula Formula.loose
    (.range ⟨⟨0, 0⟩, false, false⟩ ⟨⟨2, 1⟩, false, false⟩)) := by
  have tokens : Formula.tokenize Formula.loose =
      [.reference "A1", .colon, .reference "B3", .finish] := by decide +kernel
  have parsed : Formula.parse Formula.loose =
      .ok (.range ⟨⟨0, 0⟩, false, false⟩ ⟨⟨2, 1⟩, false, false⟩) := by
    rw [Formula.parse, tokens]
    rfl
  exact get_holding_eq_some_iff.mpr ⟨rfl, (Cell.ofFormula_eq_formula_iff.mpr parsed).symm⟩

/-- The error complains about the colon in one order, and about the lost end in the other one. -/
theorem Sheet.applyLineEdit_comm_loose : Sheet.loose.Fits ∧ Sheet.loose.FromText ∧
    ((loose.applyLineEdit ⟨.row, .delete, 0⟩).applyLineEdit ⟨.col, .delete, 1⟩).get ⟨2, 2⟩ =
      some (.error .parse "Parse error: Unexpected token after expression (at :)") ∧
    ((loose.applyLineEdit ⟨.col, .delete, 1⟩).applyLineEdit ⟨.row, .delete, 0⟩).get ⟨2, 2⟩ =
      some (.error .parse "Parse error: Expected a cell reference after ':' (at #REF!)") ∧
    Option.Rel Cell.SameUpToWording
      (((loose.applyLineEdit ⟨.row, .delete, 0⟩).applyLineEdit ⟨.col, .delete, 1⟩).get ⟨2, 2⟩)
      (((loose.applyLineEdit ⟨.col, .delete, 1⟩).applyLineEdit ⟨.row, .delete, 0⟩).get ⟨2, 2⟩) := by
  have rows : Formula.parse (Formula.adjust Formula.loose ⟨.row, .delete, 0⟩) =
      .error (.trailing .colon) := by
    have tokens : Formula.tokenize (Formula.adjust Formula.loose ⟨.row, .delete, 0⟩) =
        [.lost, .colon, .reference "B2", .finish] := by decide +kernel
    rw [Formula.parse, tokens]
    rfl
  have cols : Formula.parse (Formula.adjust Formula.loose ⟨.col, .delete, 1⟩) =
      .error (.expectedReference .lost) := by
    have tokens : Formula.tokenize (Formula.adjust Formula.loose ⟨.col, .delete, 1⟩) =
        [.reference "A1", .colon, .lost, .finish] := by decide +kernel
    rw [Formula.parse, tokens]
    rfl
  have rowsFirst : (loose.applyLineEdit ⟨.row, .delete, 0⟩).get ⟨2, 3⟩ =
      some (.error .parse "Parse error: Unexpected token after expression (at :)") := by
    rw [get_applyLineEdit get_loose rfl (by decide +kernel), Cell.adjust, Cell.ofFormula, rows]
    rfl
  have colsFirst : (loose.applyLineEdit ⟨.col, .delete, 1⟩).get ⟨3, 2⟩ =
      some (.error .parse "Parse error: Expected a cell reference after ':' (at #REF!)") := by
    rw [get_applyLineEdit get_loose rfl (by decide +kernel), Cell.adjust, Cell.ofFormula, cols]
    rfl
  have fits : loose.Fits := fits_holding (by decide)
  have fromText : loose.FromText := fromText_holding 5 5 ⟨3, 3⟩ Formula.loose
  exact ⟨fits, fromText, get_applyLineEdit rowsFirst rfl (by decide +kernel),
    get_applyLineEdit colsFirst rfl (by decide +kernel), applyLineEdit_comm loose fits
      fromText ⟨.row, .delete, 0⟩ ⟨.col, .delete, 1⟩ rfl rfl ⟨2, 2⟩⟩

end Spreadsheet
