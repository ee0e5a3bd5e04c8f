import Spreadsheet.SheetFile.Report
import Spreadsheet.Proofs.Evaluation.Finite
import Spreadsheet.Proofs.Range.Reading
import Spreadsheet.Proofs.SheetFile.Cells

/-!
# What is reported of a file

A report has an entry for each stored cell, under the text of its address. In the grid such a text
is read back as the address, so no two cells share an entry and none is lost. A formula is reported
with its outcome of the pass; a pass leaves no formula without one.

An entry is the JSON form of what the cell shows. JSON keeps a value as it is, unless it is a number
that is not finite: that becomes null, and a formula in which such a number is written shows one.
-/

namespace Spreadsheet

/-- What the cell at an address shows when the formulas of the sheet have these outcomes: the value
of a literal or of a formula, or the token of an error. -/
inductive Reports (outcomes : Outcomes) (a : Address) : Cell → Value → Prop
  | literal (v : Value) : Reports outcomes a (.literal v) v
  | error (code : ErrorCode) (message : String) :
      Reports outcomes a (.error code message) (.text ("#" ++ code.name ++ "!"))
  | value {source : String} {tree : Expr} {v : Value} (found : outcomes[a]? = some (.value v)) :
      Reports outcomes a (.formula source tree) v
  | failed {source : String} {tree : Expr} {code : ErrorCode} {message : String}
      (found : outcomes[a]? = some (.error code message)) :
      Reports outcomes a (.formula source tree) (.text ("#" ++ code.name ++ "!"))

/-- The value that an entry of a report states. -/
def Report.Entry.value : Report.Entry → Value
  | null => .empty
  | boolean b => .boolean b
  | number n _ => .number n
  | text s => .text s

variable {s : Sheet} {a b : Address} {c : Cell}

/-! ### JSON values -/

namespace Report.Entry

variable {v : Value}

/-- JSON keeps a finite value. -/
theorem value_ofValue (finite : v.IsFinite) : (ofValue v).value = v := by
  cases v with
  | number n =>
      rw [ofValue, dif_pos (Value.isFinite_number.mp finite)]
      rfl
  | empty | boolean b | text s => rfl

/-- A number that is not finite becomes null. -/
theorem ofValue_eq_null (infinite : ¬ v.IsFinite) : ofValue v = null := by
  cases v with
  | number n => rw [ofValue, dif_neg (mt Value.isFinite_number.mpr infinite)]
  | empty => rfl
  | boolean b | text s => exact absurd (Value.isFinite_of_number? rfl) infinite

end Report.Entry

/-! ### Keys of a report -/

/-- The address of a stored cell is read back from its text. -/
theorem Sheet.Fits.ofText_text (h : s.Fits) (stored : s.get a = some c) :
    Address.ofText a.text = .ok a := by
  have inside := contains_iff_lines.mp (h.stored a c stored)
  exact Address.ofText_text (Nat.lt_of_lt_of_le (inside .row) (h.lines_le .row))
    (Nat.lt_of_lt_of_le (inside .col) (h.lines_le .col))

/-- Stored cells have different keys. -/
theorem Sheet.Fits.pairwise_text (h : s.Fits) :
    s.entries.Pairwise fun x y => x.1.text ≠ y.1.text := by
  refine s.pairwise_entries.imp_of_mem fun {x y} hx hy different same => different ?_
  have read := h.ofText_text (mem_entries.mp hx)
  rw [same, h.ofText_text (mem_entries.mp hy)] at read
  exact (Except.ok.inj read).symm

namespace Report

/-- The entries of a report before they are sorted by key. -/
def lines (s : Sheet) (c : Calculation) : List (String × Entry) :=
  s.entries.map fun entry => (entry.1.text, (outcome s c entry.1).reported)

theorem ofSheet_eq_ofList (s : Sheet) (c : Calculation) :
    ofSheet s c = Std.ExtTreeMap.ofList (lines s c) compare := by
  rw [Std.ExtTreeMap.ofList_eq_foldl, lines, List.foldl_map]
  rfl

variable {calculation : Calculation}

theorem distinct_lines (h : s.Fits) : (lines s calculation).Pairwise
    fun x y => ¬ compare x.1 y.1 = .eq := by
  rw [lines, List.pairwise_map]
  exact h.pairwise_text.imp fun different same => different (Std.LawfulEqOrd.eq_of_compare same)

/-- No entry is lost and none is merged with another one. -/
theorem size_ofSheet (h : s.Fits) : (ofSheet s calculation).size = s.size := by
  rw [ofSheet_eq_ofList, Std.ExtTreeMap.size_ofList (distinct_lines h), lines, List.length_map]
  exact Std.ExtTreeMap.length_toList

theorem getElem?_ofSheet (h : s.Fits) (stored : s.get a = some c) :
    (ofSheet s calculation)[a.text]? = some (outcome s calculation a).reported := by
  rw [ofSheet_eq_ofList]
  refine Std.ExtTreeMap.getElem?_ofList_of_mem Std.ReflOrd.compare_self (distinct_lines h) ?_
  exact List.mem_map.mpr ⟨(a, c), Sheet.mem_entries.mpr stored, rfl⟩

/-- Nothing is reported but stored cells. -/
theorem exists_of_mem_ofSheet {key : String} (mem : key ∈ ofSheet s calculation) :
    ∃ a c, s.get a = some c ∧ a.text = key := by
  rw [ofSheet_eq_ofList, Std.ExtTreeMap.mem_ofList, List.contains_iff_mem] at mem
  simp only [lines, List.map_map, List.mem_map, Function.comp_apply, Prod.exists] at mem
  obtain ⟨a, c, stored, same⟩ := mem
  exact ⟨a, c, Sheet.mem_entries.mp stored, same⟩

/-! ### Entries of a report -/

/-- A cell without a formula is evaluated when it is reported, if it has not been before. -/
theorem outcome_of_not_formula (options : Options) (h : a ∉ s.formulas) :
    outcome s (s.calculate options) a = s.evaluate {} a := by
  have fresh : a ∉ (s.calculate options).outcomes := mt Evaluator.mem_evaluateSheet.mp h
  rw [outcome, Std.ExtTreeMap.getElem?_eq_none fresh]

/-- A stored cell is reported as what it shows, in JSON. -/
theorem reported_outcome (options : Options) (stored : s.get a = some c) :
    ∃ v, Reports (({ options := options } : Evaluator).evaluateSheet s).1 a c v ∧
      (outcome s (s.calculate options) a).reported = .ofValue v := by
  cases c with
  | literal v =>
      have noFormula : a ∉ s.formulas := by simp [Sheet.mem_formulas, stored]
      rw [outcome_of_not_formula options noFormula, Sheet.evaluate, Sheet.evaluateWith, stored]
      exact ⟨v, .literal v, rfl⟩
  | error code message =>
      have noFormula : a ∉ s.formulas := by simp [Sheet.mem_formulas, stored]
      rw [outcome_of_not_formula options noFormula, Sheet.evaluate, Sheet.evaluateWith, stored]
      exact ⟨_, .error code message, rfl⟩
  | formula source tree =>
      have formula : a ∈ (s.calculate options).outcomes :=
        Evaluator.mem_evaluateSheet.mpr (Sheet.mem_formulas.mpr ⟨source, tree, stored⟩)
      obtain ⟨shown, found⟩ := Option.isSome_iff_exists.mp
        (Std.ExtTreeMap.mem_iff_isSome_getElem?.mp formula)
      rw [outcome, found]
      cases shown with
      | value v => exact ⟨v, .value found, rfl⟩
      | error code message => exact ⟨_, .failed found, rfl⟩

end Report

/-- A formula that is nothing but a number shows it. -/
theorem Evaluator.outcome_of_number (e : Evaluator) {source : String} {n : Float}
    (stored : s.get a = some (.formula source (.number n))) :
    (e.evaluateSheet s).1[a]? = some (.value (.number n)) := by
  have formula : a ∈ s.formulas := Sheet.mem_formulas.mpr ⟨source, _, stored⟩
  obtain ⟨later, earlier, split⟩ := exists_split (e := e) formula
  rw [outcome_of_split split formula, Sheet.evaluateWith, stored]
  rfl

namespace SheetFile

variable {f : SheetFile}

/-- Every cell of a file is reported once. A file makes no sheet exactly if one of its keys is no
address or names one outside the extent, which is at least one cell and at most the grid. Otherwise
each address that keys name holds what the last of them in the order of bytes says, and the others
are empty. The report has as many entries as there are stored cells: each cell has one under the
text of its address, which is read back as the address, and there are no others. A cell shows its
literal, the outcome of its formula in the pass, or the token of an error. Its entry states the
value that it shows, unless this is a number that is not finite: then the entry is null. -/
theorem reports_every_cell_once (f : SheetFile) (options : Options) :
    ((∃ fault, f.toSheet = .error fault) ↔ ∃ key ∈ f.cells,
      (∃ cause, Address.ofText key = .error cause) ∨ ∃ a, Address.ofText key = .ok a ∧
        (min (max (f.rows.getD defaultRows) 1) maxRows ≤ a.row ∨
          min (max (f.cols.getD defaultCols) 1) maxCols ≤ a.col)) ∧
    ∀ s, f.toSheet = .ok s →
      let report := Report.ofSheet s (s.calculate options)
      let outcomes := (({ options := options } : Evaluator).evaluateSheet s).1
      (∀ key v a, f.Decides key v a → s.get a = prescribed v) ∧
      (∀ a, (∃ key v, f.Decides key v a) ∨
        (∀ key ∈ f.cells, Address.ofText key ≠ .ok a) ∧ s.get a = none) ∧
      report.size = s.size ∧
      (∀ a c, s.get a = some c → Address.ofText a.text = .ok a ∧
        ∃ v entry, Reports outcomes a c v ∧ report[a.text]? = some entry ∧
          (v.IsFinite → entry.value = v) ∧ (¬ v.IsFinite → entry = .null)) ∧
      ∀ key ∈ report, ∃ a c, s.get a = some c ∧ a.text = key := by
  constructor
  · simp only [← not_places_iff]
    exact exists_error_iff
  · intro s made report outcomes
    have fits := fits_of_toSheet made
    refine ⟨fun key v a => get_of_decides made, exists_decides_or made, Report.size_ofSheet fits,
      fun a c stored => ⟨fits.ofText_text stored, ?_⟩, fun key => Report.exists_of_mem_ofSheet⟩
    obtain ⟨v, reports, reported⟩ := Report.reported_outcome options stored
    refine ⟨v, .ofValue v, reports, ?_, Report.Entry.value_ofValue, Report.Entry.ofValue_eq_null⟩
    rw [Report.getElem?_ofSheet fits stored, reported]

/-- A file of one row in which several keys name the first two addresses. -/
def aliased : SheetFile where
  rows := some 0
  cells := .ofList [("A1", .text "label"), ("a1", .text "=C1"), ("$A$1", .boolean true),
    (" A1", .empty), ("B1", .boolean true), ("b1", .empty), ("c$1", .text "note")] compare

/-- The same file with a key outside the row. -/
def straying : SheetFile :=
  { aliased with cells := aliased.cells.insert "A2" .empty }

/-- The keys in small letters are the last ones. A cell outside the extent is an error even if
nothing is to be stored there. -/
theorem reports_every_cell_once_aliased : (∃ s, aliased.toSheet = .ok s ∧
      s.get ⟨0, 0⟩ = some (.ofFormula "=C1") ∧ s.get ⟨0, 1⟩ = none ∧
      (Report.ofSheet s (s.calculate {}))["C1"]? = some (.text "note")) ∧
    ∃ fault, straying.toSheet = .error fault := by
  obtain ⟨-, reported⟩ := reports_every_cell_once aliased {}
  obtain ⟨fails, -⟩ := reports_every_cell_once straying {}
  have makes : (aliased.toSheet).toOption.isSome := by decide
  obtain ⟨s, made⟩ := Option.isSome_iff_exists.mp makes
  have made : aliased.toSheet = .ok s := toOption_eq_some_iff.mp made
  obtain ⟨decided, -, -, entries, -⟩ := reported s made
  have first : aliased.Decides "a1" (.text "=C1") ⟨0, 0⟩ := decides_iff.mpr (by decide)
  have second : aliased.Decides "b1" .empty ⟨0, 1⟩ := decides_iff.mpr (by decide)
  have third : aliased.Decides "c$1" (.text "note") ⟨0, 2⟩ := decides_iff.mpr (by decide)
  obtain ⟨-, v, entry, reports, shown, states, -⟩ :=
    entries ⟨0, 2⟩ (.literal (.text "note")) (decided _ _ _ third)
  refine ⟨⟨s, made, decided _ _ _ first, decided _ _ _ second, ?_⟩, ?_⟩
  · have key : (⟨0, 2⟩ : Address).text = "C1" := by decide +kernel
    cases reports
    have same : entry.value = .text "note" := states (Value.isFinite_of_number? rfl)
    cases entry with
    | text s =>
        cases same
        rwa [key] at shown
    | null | boolean b | number n finite => cases same
  · exact fails.mpr
      ⟨"A2", Std.ExtTreeMap.mem_insert_self, .inr ⟨⟨1, 0⟩, by decide, .inl (by decide)⟩⟩

/-- A file with one cell, whose formula is a number beyond the range of doubles. -/
def astronomic : SheetFile where
  cells := .ofList [("A1", .text Formula.astronomic)] compare

theorem exists_sheet_astronomic : ∃ s, astronomic.toSheet = .ok s ∧
    s.get ⟨0, 0⟩ = some (.formula Formula.astronomic (.number (1 / 0))) := by
  have places : ∀ key ∈ astronomic.cells, astronomic.Places key := by
    intro key mem
    rw [astronomic, Std.ExtTreeMap.mem_ofList] at mem
    obtain rfl : key = "A1" := by simpa using mem
    exact ⟨⟨0, 0⟩, by decide, by decide⟩
  have decides : astronomic.Decides "A1" (.text Formula.astronomic) ⟨0, 0⟩ :=
    decides_iff.mpr (by decide +kernel)
  have begins : Formula.astronomic.toList.head? = some '=' := by
    rw [Formula.toList_astronomic, List.head?_cons]
  obtain ⟨s, made⟩ := exists_toSheet_iff.mpr places
  refine ⟨s, made, ?_⟩
  rw [get_of_decides made decides, prescribed, if_pos begins, Cell.ofFormula_astronomic]

/-- The formula has a value, but what the report holds for it is null, which states another one. -/
theorem report_astronomic : ∃ s n, astronomic.toSheet = .ok s ∧
    (({} : Evaluator).evaluateSheet s).1[(⟨0, 0⟩ : Address)]? = some (.value (.number n)) ∧
    (Report.ofSheet s (s.calculate {}))["A1"]? = some .null ∧
    Report.Entry.null.value ≠ .number n := by
  obtain ⟨s, made, stored⟩ := exists_sheet_astronomic
  have shown := Evaluator.outcome_of_number {} stored
  have outcome : Report.outcome s (s.calculate {}) ⟨0, 0⟩ = .value (.number (1 / 0)) := by
    rw [Report.outcome, Sheet.calculate, shown]
  have infinite : ¬ (.number (1 / 0) : Value).IsFinite := by
    rw [Value.isFinite_number]
    decide +kernel
  have key : (⟨0, 0⟩ : Address).text = "A1" := by decide +kernel
  have reported : (Report.ofSheet s (s.calculate {}))[(⟨0, 0⟩ : Address).text]? = _ :=
    Report.getElem?_ofSheet (fits_of_toSheet made) stored
  rw [key, outcome, Outcome.reported, Report.Entry.ofValue_eq_null infinite] at reported
  exact ⟨s, _, made, shown, reported, nofun⟩

end SheetFile

end Spreadsheet
