import Spreadsheet.Proofs.Formula.Leaves
import Spreadsheet.Proofs.Sheet.Preservation

/-!
# Formulas that are read from their text

A formula is stored as text and as a tree, and nothing in a sheet keeps the two together. Still
no edit of cells or of lines brings in a formula whose tree is not what its text reads as.
-/

namespace Spreadsheet

/-- Whether the tree of a cell, if there is one, is read from its text. -/
def Cell.FromText (c : Cell) : Prop :=
  ∀ source tree, c = .formula source tree → Formula.parse source = .ok tree

theorem Cell.ofFormula_eq_formula_iff {source : String} {tree : Expr} :
    Cell.ofFormula source = .formula source tree ↔ Formula.parse source = .ok tree := by
  unfold ofFormula
  cases Formula.parse source with
  | ok tree' => simp
  | error fault => simp

/-- The text of a reference on the grid is stored as a formula that is this reference. -/
theorem Cell.ofFormula_reference {r : Reference} (h : r.InGrid) :
    Cell.ofFormula ("=" ++ r.text) = .formula ("=" ++ r.text) (.cell r) :=
  ofFormula_eq_formula_iff.mpr (Formula.parse_reference h)

theorem Cell.fromText_literal (v : Value) : (Cell.literal v).FromText :=
  nofun

theorem Cell.fromText_ofFormula (source : String) : (Cell.ofFormula source).FromText := by
  intro source' tree same
  unfold ofFormula at same
  cases parsed : Formula.parse source with
  | ok tree' =>
      rw [parsed] at same
      cases same
      exact parsed
  | error fault =>
      rw [parsed] at same
      cases same

/-- An edit of lines changes the text of a formula, which is then read again. -/
theorem Cell.adjust_ofFormula {source : String} {tree : Expr} (e : LineEdit)
    (parsed : Formula.parse source = .ok tree) :
    (Cell.ofFormula source).adjust e = .ofFormula (Formula.adjust source e) := by
  rw [ofFormula_eq_formula_iff.mpr parsed, adjust]

/-- Text that is no formula leaves a parse error behind. -/
theorem Cell.ofFormula_of_no_formula {source : String}
    (h : ¬ ∃ tree, Formula.parse source = .ok tree) :
    ∃ message, Cell.ofFormula source = .error .parse message := by
  unfold ofFormula
  cases parsed : Formula.parse source with
  | ok tree => exact absurd ⟨tree, parsed⟩ h
  | error fault => exact ⟨_, rfl⟩

theorem Cell.FromText.adjust {c : Cell} (h : c.FromText) (e : LineEdit) :
    (c.adjust e).FromText := by
  cases c with
  | literal v => exact h
  | formula source tree => exact fromText_ofFormula (Formula.adjust source e)
  | error code message => exact h

theorem Action.fromText_cell? {action : Action} {c : Cell} (h : action.cell? = some c) :
    c.FromText := by
  cases action with
  | setValue v =>
      cases h
      exact Cell.fromText_literal v
  | setFormula source =>
      cases h
      exact Cell.fromText_ofFormula source
  | clear => cases h

namespace Sheet

/-- Whether the tree of every formula of a sheet is read from its text. -/
def FromText (s : Sheet) : Prop :=
  ∀ a c, s.get a = some c → c.FromText

theorem fromText_blank (id name : String) (rows cols : Nat) :
    (blank id name rows cols).FromText := by
  intro a c stored
  simp [blank, get] at stored

variable {s s' : Sheet} {a : Address} {c : Cell}

theorem FromText.insert (h : s.FromText) (hc : c.FromText) :
    FromText { s with cells := s.cells.insert a c } := by
  intro b d stored
  rw [get, Std.ExtTreeMap.getElem?_insert] at stored
  split at stored
  · cases stored
    exact hc
  · exact h b d stored

theorem fromText_holding (rows cols : Nat) (a : Address) (source : String) :
    (holding rows cols a (.ofFormula source)).FromText :=
  (fromText_blank "holding" "Holding" rows cols).insert (Cell.fromText_ofFormula source)

theorem FromText.set (h : s.FromText) (hc : c.FromText) (stores : s.set a c = .ok s') :
    s'.FromText := by
  unfold Sheet.set at stores
  split at stores
  · cases stores
  · cases stores
    exact h.insert hc

theorem FromText.remove (h : s.FromText) (a : Address) : (s.remove a).FromText := by
  intro b d stored
  rw [Sheet.remove, get, Std.ExtTreeMap.getElem?_erase] at stored
  split at stored
  · cases stored
  · exact h b d stored

theorem invariant_fromText : Invariant Cell.FromText FromText where
  blank := fromText_blank
  set := FromText.set
  remove a h := h.remove a

/-- A batch of edits keeps the trees of a sheet together with their texts. -/
theorem FromText.applyEdits (h : s.FromText) {edits : List Edit}
    (applied : s.applyEdits edits = .ok s') : s'.FromText :=
  invariant_fromText.applyEdits Action.fromText_cell? h applied

/-- An edit of lines keeps the trees of a sheet together with their texts. -/
theorem FromText.applyLineEdit (h : s.FromText) (e : LineEdit) :
    (s.applyLineEdit e).FromText :=
  invariant_fromText.applyLineEdit fun entry mem =>
    (h entry.1 entry.2 (mem_entries.mp mem)).adjust e

end Sheet

end Spreadsheet
