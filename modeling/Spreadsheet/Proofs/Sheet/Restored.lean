import Spreadsheet.Proofs.Formula.Respelled
import Spreadsheet.Proofs.Reference.Following
import Spreadsheet.Proofs.Sheet.Runs
import Spreadsheet.Proofs.Sheet.Survival

/-!
# A line that is inserted and deleted again

Deleting a line that has just been inserted brings a sheet back, unless the insertion has pushed
something off its end. That takes a cell on the last line of the sheet or a reference to the last
line of the grid. A range can also be lost if one end is fixed and the other one is not, because an
insertion may move the one past the other.

Texts do not come back, since references are spelled anew. Trees do.
-/

namespace Spreadsheet

variable {axis : Axis}

namespace Formula

/-- Whether the references of a text survive the insertion of a line: none of them names the last
line of the grid, and the ends of a range are both fixed along the axis, or neither is. An end of a
range is a reference as well, even if the other end is off the grid. -/
structure Restorable (text : String) (axis : Axis) : Prop where
  references : ∀ r ∈ writtenReferences (tokenize text), r.along axis + 1 ≠ axis.limit
  ranges : ∀ ends ∈ writtenRanges (tokenize text), ends.1.fixedOn axis = ends.2.fixedOn axis

theorem restorable_iff (text : String) (axis : Axis) : Restorable text axis ↔
    (∀ r ∈ writtenReferences (tokenize text), r.along axis + 1 ≠ axis.limit) ∧
      ∀ ends ∈ writtenRanges (tokenize text), ends.1.fixedOn axis = ends.2.fixedOn axis :=
  ⟨fun h => ⟨h.references, h.ranges⟩, fun h => ⟨h.1, h.2⟩⟩

instance (text : String) (axis : Axis) : Decidable (Restorable text axis) :=
  decidable_of_iff _ (restorable_iff text axis).symm

variable {text : String} {tree : Expr}

theorem Restorable.inside (h : Restorable text axis) {r : Reference}
    (mem : r ∈ writtenReferences (tokenize text)) : r.along axis + 1 < axis.limit := by
  obtain ⟨w, -, read⟩ := mem_writtenReferences.mp mem
  have last := h.references r mem
  have inGrid := (Reference.inGrid_of_ofChars read).along_lt axis
  omega

/-- All references of the text come back. -/
theorem Restorable.fixes (h : Restorable text axis) (line : Nat) :
    ((adjusting ⟨axis, .insert, line⟩).andThen (adjusting ⟨axis, .delete, line⟩)).Fixes
      (tokenize text) where
  lone _ mem := LineEdit.adjust_insert_delete (h.inside mem)
  pair ends mem :=
    have ⟨first, second⟩ := ends_mem_writtenReferences mem
    LineEdit.adjustRange_insert_delete (h.inside first) (h.inside second) (h.ranges ends mem)

/-- After the insertion and the deletion, the text is read as the formula that it was. -/
theorem Restorable.parse_adjust_adjust (h : Restorable text axis) (parsed : parse text = .ok tree)
    (line : Nat) :
    parse (adjust (adjust text ⟨axis, .insert, line⟩) ⟨axis, .delete, line⟩) = .ok tree := by
  rw [adjust_adjust]
  exact parse_text_of_fixes parsed (h.fixes line)

end Formula

/-- Whether two cells are the same up to the text of a formula. -/
inductive Cell.SameUpToText : Cell → Cell → Prop where
  | literal (v : Value) : SameUpToText (.literal v) (.literal v)
  | formula (source source' : String) (tree : Expr) :
    SameUpToText (.formula source tree) (.formula source' tree)
  | error (code : ErrorCode) (message : String) :
    SameUpToText (.error code message) (.error code message)

namespace Sheet

/-- Whether a sheet survives the insertion of a line: no cell lies on its last line, and the
references of its formulas survive. -/
structure Restorable (s : Sheet) (axis : Axis) : Prop where
  cells : ∀ a c, s.get a = some c → a.along axis + 1 ≠ s.lines axis
  formulas : ∀ a source tree, s.get a = some (.formula source tree) →
    Formula.Restorable source axis

variable {s : Sheet} {a b : Address} {c : Cell}

/-- Every cell comes back to its address. -/
theorem Restorable.get_delete_insert (restorable : s.Restorable axis) (fits : s.Fits)
    (line : Nat) : ((s.applyLineEdit ⟨axis, .insert, line⟩).applyLineEdit
      ⟨axis, .delete, line⟩).get a =
      (s.get a).map fun c => (c.adjust ⟨axis, .insert, line⟩).adjust ⟨axis, .delete, line⟩ := by
  have fits' := fits_applyLineEdit s ⟨axis, .insert, line⟩
  cases stored : s.get a with
  | some c =>
      have start := fits.stored a c stored
      obtain ⟨b, moved, inside⟩ := LineEdit.exists_move (e := ⟨axis, .insert, line⟩)
        (contains_iff_lines.mp start) (restorable.cells a c stored)
      refine fits'.get_applyLineEdit_eq_some_iff.mpr
        ⟨b, _, ?_, LineEdit.move_delete_of_insert moved, ?_, rfl⟩
      · exact fits.get_applyLineEdit_eq_some_iff.mpr
          ⟨a, c, stored, moved, contains_iff_lines.mpr inside, rfl⟩
      · rwa [fits.contains_applyLineEdit]
  | none =>
      rw [Option.map_none, Option.eq_none_iff_forall_ne_some]
      intro d found
      obtain ⟨b, _, between, back, -⟩ := fits'.get_applyLineEdit_eq_some_iff.mp found
      obtain ⟨a', c, stored', moved, -⟩ := fits.get_applyLineEdit_eq_some_iff.mp between
      cases back.symm.trans (LineEdit.move_delete_of_insert moved)
      rw [stored] at stored'
      cases stored'

/-- Every cell comes back as it was, up to the text of a formula. -/
theorem Restorable.sameUpToText (restorable : s.Restorable axis) (fromText : s.FromText)
    (line : Nat) (stored : s.get a = some c) :
    c.SameUpToText ((c.adjust ⟨axis, .insert, line⟩).adjust ⟨axis, .delete, line⟩) := by
  cases c with
  | literal v => exact .literal v
  | error code message => exact .error code message
  | formula source tree =>
      have parsed := fromText a _ stored source tree rfl
      rw [Cell.adjust_adjust_of_parse parsed
        ((restorable.formulas a source tree stored).parse_adjust_adjust parsed line)]
      exact .formula source _ tree

/-- Inserting a line and deleting it again brings back every cell of a sheet, with the same value,
error or tree, unless something is pushed off an end. -/
theorem delete_insert (s : Sheet) (fits : s.Fits) (fromText : s.FromText) (axis : Axis)
    (restorable : s.Restorable axis) (line : Nat) :
    ((s.applyLineEdit ⟨axis, .insert, line⟩).applyLineEdit ⟨axis, .delete, line⟩).SameFrame s ∧
      ∀ a, Option.Rel Cell.SameUpToText (s.get a)
        (((s.applyLineEdit ⟨axis, .insert, line⟩).applyLineEdit ⟨axis, .delete, line⟩).get a) := by
  refine ⟨?_, fun a => ?_⟩
  · exact ((fits_applyLineEdit s ⟨axis, .insert, line⟩).sameFrame_applyLineEdit _).trans
      (fits.sameFrame_applyLineEdit _)
  · rw [restorable.get_delete_insert fits]
    cases stored : s.get a with
    | none => exact .none
    | some c => exact .some (restorable.sameUpToText fromText line stored)

end Sheet

/-- A formula with a reversed range and a fixed reference. -/
def Formula.scattered : String :=
  "=SUM(c4 : A2)+$B$03"

/-- The tree of this formula. -/
def Expr.scattered : Expr :=
  .binary .add (.call "SUM" [.range ⟨⟨3, 2⟩, false, false⟩ ⟨⟨1, 0⟩, false, false⟩])
    (.cell ⟨⟨2, 1⟩, true, true⟩)

/-- A sheet with this formula. -/
def Sheet.scattered : Sheet :=
  holding 6 6 ⟨4, 1⟩ (.ofFormula Formula.scattered)

theorem Sheet.get_scattered {a : Address} {c : Cell} : Sheet.scattered.get a = some c ↔
    a = ⟨4, 1⟩ ∧ c = .formula Formula.scattered Expr.scattered := by
  have tokens : Formula.tokenize Formula.scattered = [.function "SUM", .leftParen,
      .reference "c4", .colon, .reference "A2", .rightParen, .operator .add, .reference "$B$03",
      .finish] := by decide +kernel
  have parsed : Formula.parse Formula.scattered = .ok Expr.scattered := by
    rw [Formula.parse, tokens]
    rfl
  rw [scattered, get_holding_eq_some_iff, Cell.ofFormula_eq_formula_iff.mpr parsed]

theorem Sheet.restorable_scattered : Sheet.scattered.Restorable .row where
  cells a c stored := by
    obtain ⟨rfl, -⟩ := get_scattered.mp stored
    decide
  formulas a source tree stored := by
    obtain ⟨-, same⟩ := get_scattered.mp stored
    cases same
    decide +kernel

/-- The formula comes back if a row is inserted in the middle of its range and deleted again. -/
theorem Sheet.delete_insert_scattered : Sheet.scattered.Fits ∧ Sheet.scattered.FromText ∧
    Sheet.scattered.Restorable .row ∧ ∃ source,
      ((scattered.applyLineEdit ⟨.row, .insert, 2⟩).applyLineEdit ⟨.row, .delete, 2⟩).get ⟨4, 1⟩ =
        some (.formula source Expr.scattered) := by
  have fits : scattered.Fits := fits_holding (by decide)
  have fromText : scattered.FromText := fromText_holding 6 6 ⟨4, 1⟩ Formula.scattered
  refine ⟨fits, fromText, restorable_scattered, ?_⟩
  have back := (delete_insert scattered fits fromText .row restorable_scattered 2).2 ⟨4, 1⟩
  rw [get_scattered.mpr ⟨rfl, rfl⟩] at back
  generalize ((scattered.applyLineEdit ⟨.row, .insert, 2⟩).applyLineEdit ⟨.row, .delete, 2⟩).get
    ⟨4, 1⟩ = found at back
  cases back with
  | some same =>
      cases same with
      | formula _ source _ => exact ⟨source, rfl⟩

end Spreadsheet
