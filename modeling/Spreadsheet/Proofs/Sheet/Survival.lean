import Spreadsheet.Proofs.Formula.Tearing
import Spreadsheet.Proofs.Sheet.FromText
import Spreadsheet.Proofs.Sheet.Moving

/-!
# Formulas that survive an edit

An edit of lines reads every formula again from its redirected text. What was a formula stays one,
unless one of its ranges is torn apart; then the cell holds a parse error and its text is gone. No
later edit mends it, so what two edits leave of a formula can be told from its last text alone.
-/

namespace Spreadsheet

/-! ### One cell -/

section Cells

variable {s : Sheet} {edit : LineEdit} {a b : Address} {text : String} {e : Expr}

/-- A formula that an edit keeps is still one if none of its ranges is torn apart, and only its
references are others. -/
theorem Sheet.formula_applyLineEdit (parsed : Formula.parse text = .ok e)
    (stored : s.get a = some (.formula text e)) (moved : edit.move a = some b)
    (inside : (s.applyLineEdit edit).contains b)
    (keeps : (Formula.adjusting edit).KeepsRanges text.toList) :
    ∃ e', (s.applyLineEdit edit).get b = some (.formula (Formula.adjust text edit) e') ∧
      e.skeleton = e'.skeleton := by
  have onGrid := Formula.staysOnGrid_adjusting edit
  obtain ⟨e', again, same⟩ := Formula.parse_redirected_of_keepsRanges onGrid parsed keeps
  refine ⟨e', ?_, same⟩
  rw [get_applyLineEdit stored moved inside, Cell.adjust]
  exact congrArg some (Cell.ofFormula_eq_formula_iff.mpr again)

/-- A formula that an edit tears apart becomes a parse error. -/
theorem Sheet.error_applyLineEdit (parsed : Formula.parse text = .ok e)
    (stored : s.get a = some (.formula text e)) (moved : edit.move a = some b)
    (inside : (s.applyLineEdit edit).contains b)
    (torn : ¬ (Formula.adjusting edit).KeepsRanges text.toList) :
    ∃ message, (s.applyLineEdit edit).get b = some (.error .parse message) := by
  have noFormula : ¬ ∃ e', Formula.parse (Formula.adjust text edit) = .ok e' := by
    rwa [Formula.adjust,
      Formula.parse_redirected_iff (Formula.staysOnGrid_adjusting edit) parsed]
  obtain ⟨message, failed⟩ := Cell.ofFormula_of_no_formula noFormula
  exact ⟨message, by rw [get_applyLineEdit stored moved inside, Cell.adjust, failed]⟩

end Cells

/-! ### Two edits of a formula -/

section TwoEdits

variable {edit edit' : LineEdit} {text : String} {e e' : Expr}

/-- Two edits change a text as both at once do. -/
theorem Formula.adjust_adjust (text : String) (edit edit' : LineEdit) :
    adjust (adjust text edit) edit' = ((adjusting edit).andThen (adjusting edit')).text text :=
  Redirection.text_text (keepsMarkers_adjusting edit) (staysOnGrid_adjusting edit)
    (adjusting edit') text

/-- If a formula is left after two edits, the first one has not spoiled it. -/
theorem Cell.adjust_adjust_of_parse (parsed : Formula.parse text = .ok e)
    (again : Formula.parse (Formula.adjust (Formula.adjust text edit) edit') = .ok e') :
    ((formula text e).adjust edit).adjust edit' =
      formula (Formula.adjust (Formula.adjust text edit) edit') e' := by
  obtain ⟨between, first⟩ :
      ∃ between, Formula.parse (Formula.adjust text edit) = .ok between := by
    rw [Formula.adjust_adjust] at again
    exact Formula.exists_parse_of_andThen (Formula.staysOnGrid_adjusting edit) parsed again
  rw [adjust, ofFormula_eq_formula_iff.mpr first]
  exact ofFormula_eq_formula_iff.mpr again

theorem Cell.adjust_adjust_of_no_formula (text : String) (e : Expr)
    (none : ¬ ∃ e', Formula.parse (Formula.adjust (Formula.adjust text edit) edit') = .ok e') :
    ∃ message, ((formula text e).adjust edit).adjust edit' = error .parse message := by
  by_cases first : ∃ between, Formula.parse (Formula.adjust text edit) = .ok between
  · obtain ⟨between, first⟩ := first
    rw [adjust, ofFormula_eq_formula_iff.mpr first]
    exact ofFormula_of_no_formula none
  · obtain ⟨message, failed⟩ := ofFormula_of_no_formula first
    exact ⟨message, by rw [adjust, failed]; rfl⟩

end TwoEdits

/-! ### Texts and sheets -/

/-- Copying a formula, and editing lines, give a formula again exactly if none of its ranges is
torn apart, and then only its references are others. In a sheet, a formula that an edit keeps is
still one in the same case; otherwise a parse error takes its place. -/
theorem Sheet.survives_iff_keepsRanges (text : String) (e : Expr)
    (parsed : Formula.parse text = .ok e) :
    (∀ source target : Address,
      ((∃ e', Formula.parse (Formula.copy text source target) = .ok e') ↔
        (Formula.copying ((target.col : Int) - source.col)
          ((target.row : Int) - source.row)).KeepsRanges text.toList) ∧
      ∀ e', Formula.parse (Formula.copy text source target) = .ok e' →
        e.skeleton = e'.skeleton) ∧
    ∀ edit : LineEdit,
      ((∃ e', Formula.parse (Formula.adjust text edit) = .ok e') ↔
        (Formula.adjusting edit).KeepsRanges text.toList) ∧
      (∀ e', Formula.parse (Formula.adjust text edit) = .ok e' → e.skeleton = e'.skeleton) ∧
      ∀ (s : Sheet) (a b : Address), s.get a = some (.formula text e) → edit.move a = some b →
        (s.applyLineEdit edit).contains b →
        ((Formula.adjusting edit).KeepsRanges text.toList →
          ∃ e', (s.applyLineEdit edit).get b = some (.formula (Formula.adjust text edit) e') ∧
            e.skeleton = e'.skeleton) ∧
        (¬ (Formula.adjusting edit).KeepsRanges text.toList →
          ∃ message, (s.applyLineEdit edit).get b = some (.error .parse message)) := by
  refine ⟨fun source target => ?_, fun edit => ?_⟩
  · have onGrid := Formula.staysOnGrid_copying ((target.col : Int) - source.col)
      ((target.row : Int) - source.row)
    exact ⟨Formula.parse_redirected_iff onGrid parsed,
      fun _ again => Formula.skeleton_redirected onGrid parsed again⟩
  · have onGrid := Formula.staysOnGrid_adjusting edit
    refine ⟨Formula.parse_redirected_iff onGrid parsed,
      fun _ again => Formula.skeleton_redirected onGrid parsed again, ?_⟩
    intro s a b stored moved inside
    exact ⟨formula_applyLineEdit parsed stored moved inside,
      error_applyLineEdit parsed stored moved inside⟩

/-- A formula that sums a range, with blanks around the colon. -/
def Formula.spaced : String :=
  "=SUM(A1 : A2)"

/-- A sheet with this formula. -/
def Sheet.spaced : Sheet :=
  { Sheet.blank "spaced" "Spaced" 5 5 with
    cells := (∅ : AddressMap Cell).insert ⟨1, 1⟩ (.ofFormula Formula.spaced) }

theorem Formula.parse_spaced : Formula.parse Formula.spaced =
    .ok (.call "SUM" [.range ⟨⟨0, 0⟩, false, false⟩ ⟨⟨1, 0⟩, false, false⟩]) := by
  have tokens : tokenize spaced = [.function "SUM", .leftParen, .reference "A1", .colon,
      .reference "A2", .rightParen, .finish] := by decide +kernel
  rw [parse, tokens]
  rfl

theorem Sheet.fromText_spaced : Sheet.spaced.FromText :=
  (fromText_blank "spaced" "Spaced" 5 5).insert (Cell.fromText_ofFormula Formula.spaced)

theorem Sheet.get_spaced : Sheet.spaced.get ⟨1, 1⟩ = some (.formula Formula.spaced
    (.call "SUM" [.range ⟨⟨0, 0⟩, false, false⟩ ⟨⟨1, 0⟩, false, false⟩])) := by
  rw [get, spaced, Std.ExtTreeMap.getElem?_insert_self,
    Cell.ofFormula_eq_formula_iff.mpr Formula.parse_spaced]

/-- The formula may be copied, and the fourth row deleted, but not the first one. -/
theorem Sheet.survives_iff_keepsRanges_spaced :
    (∃ e', Formula.parse (Formula.copy Formula.spaced ⟨1, 1⟩ ⟨4, 3⟩) = .ok e') ∧
    (¬ ∃ e', Formula.parse (Formula.adjust Formula.spaced ⟨.row, .delete, 0⟩) = .ok e') ∧
    (∃ tree', (Sheet.spaced.applyLineEdit ⟨.row, .delete, 3⟩).get ⟨1, 1⟩ =
      some (.formula (Formula.adjust Formula.spaced ⟨.row, .delete, 3⟩) tree')) ∧
    ∃ message, (Sheet.spaced.applyLineEdit ⟨.row, .delete, 0⟩).get ⟨0, 1⟩ =
      some (.error .parse message) := by
  obtain ⟨copied, adjusted⟩ :=
    survives_iff_keepsRanges Formula.spaced _ Formula.parse_spaced
  obtain ⟨-, -, fourth⟩ := adjusted ⟨.row, .delete, 3⟩
  obtain ⟨kept, -⟩ := fourth spaced ⟨1, 1⟩ ⟨1, 1⟩ get_spaced (by decide +kernel) (by decide +kernel)
  obtain ⟨tree, found, -⟩ := kept (by decide +kernel)
  obtain ⟨survives, -, first⟩ := adjusted ⟨.row, .delete, 0⟩
  obtain ⟨-, torn⟩ := first spaced ⟨1, 1⟩ ⟨0, 1⟩ get_spaced (by decide +kernel) (by decide +kernel)
  exact ⟨(copied ⟨1, 1⟩ ⟨4, 3⟩).1.mpr (by decide +kernel),
    fun again => absurd (survives.mp again) (by decide +kernel),
    ⟨tree, found⟩, torn (by decide +kernel)⟩

/-- Deleting the first row spoils the formula, and in its place the sheet holds a parse error. -/
theorem Sheet.not_survives_spaced :
    (∃ e, Formula.parse Formula.spaced = .ok e) ∧
    (¬ ∃ e', Formula.parse (Formula.adjust Formula.spaced ⟨.row, .delete, 0⟩) = .ok e') ∧
    Sheet.spaced.FromText ∧
    (∃ tree, Sheet.spaced.get ⟨1, 1⟩ = some (.formula Formula.spaced tree)) ∧
    (Sheet.spaced.applyLineEdit ⟨.row, .delete, 0⟩).get ⟨0, 1⟩ =
      some (.error .parse "Parse error: Expected ')' (at :)") := by
  have adjusted : Formula.parse (Formula.adjust Formula.spaced ⟨.row, .delete, 0⟩) =
      .error (.expectedToken .rightParen .colon) := by
    have tokens : Formula.tokenize (Formula.adjust Formula.spaced ⟨.row, .delete, 0⟩) =
        [.function "SUM", .leftParen, .lost, .colon, .reference "A1", .rightParen, .finish] := by
      decide +kernel
    rw [Formula.parse, tokens]
    rfl
  refine ⟨⟨_, Formula.parse_spaced⟩, ?_, fromText_spaced, ⟨_, get_spaced⟩, ?_⟩
  · rintro ⟨e', again⟩
    rw [adjusted] at again
    cases again
  · rw [get_applyLineEdit get_spaced rfl (by decide +kernel), Cell.adjust, Cell.ofFormula,
      adjusted]
    rfl

end Spreadsheet
