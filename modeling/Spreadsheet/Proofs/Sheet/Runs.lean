import Spreadsheet.Proofs.Sheet.Fitting
import Spreadsheet.Proofs.Sheet.FromText

/-!
# Sheets that are changed in place

A sheet is changed in place by storing and removing cells, by batches of edits and by edits of its
lines. A change that fails may in principle leave a sheet behind on which half of it has been done.
No change does, although a batch stores its cells one after the other: every address is checked
against the extent first, and no edit of the batch changes the extent.

What holds of an empty sheet and survives each single change therefore holds after any number of
them, failing ones included.
-/

namespace Spreadsheet

/-- What a cell is made from. -/
inductive Content where
  | literal (v : Value)
  | formula (source : String)
  | error (code : ErrorCode) (message : String)

/-- The cell with this content. -/
def Content.cell : Content → Cell
  | literal v => .literal v
  | formula source => .ofFormula source
  | error code message => .error code message

/-- A change of a sheet. -/
inductive Operation where
  | store (a : Address) (content : Content)
  | remove (a : Address)
  | batch (edits : List Edit)
  | lines (e : LineEdit)

theorem Content.fromText_cell (content : Content) : content.cell.FromText := by
  cases content with
  | literal v => exact Cell.fromText_literal v
  | formula source => exact Cell.fromText_ofFormula source
  | error code message => nofun

namespace Sheet

/-- Makes a change in place: whether it succeeds, and the sheet that is left behind. -/
def perform (s : Sheet) : Operation → Except AddressError Unit × Sheet
  | .store a content =>
    match s.set a content.cell with
    | .ok s => (.ok (), s)
    | .error fault => (.error fault, s)
  | .remove a => (.ok (), s.remove a)
  | .batch edits =>
    let (count, s) := s.performBatch edits
    (count.map fun _ => (), s)
  | .lines e => (.ok (), s.applyLineEdit e)

/-- The sheet that changes leave behind, each made on what the one before has left. -/
def after (s : Sheet) (changes : List Operation) : Sheet :=
  changes.foldl (fun s change => (s.perform change).2) s

variable {s s' : Sheet} {a : Address} {c : Cell}

/-! ### The frame of a sheet -/

/-- Whether two sheets have the same names and the same extent. -/
structure SameFrame (s t : Sheet) : Prop where
  id : s.id = t.id
  name : s.name = t.name
  lines : s.lines = t.lines

theorem SameFrame.refl (s : Sheet) : s.SameFrame s :=
  ⟨rfl, rfl, rfl⟩

theorem SameFrame.symm {s t : Sheet} (h : s.SameFrame t) : t.SameFrame s :=
  ⟨h.id.symm, h.name.symm, h.lines.symm⟩

theorem SameFrame.trans {s t u : Sheet} (h : s.SameFrame t) (h' : t.SameFrame u) :
    s.SameFrame u :=
  ⟨h.id.trans h'.id, h.name.trans h'.name, h.lines.trans h'.lines⟩

/-- Two sheets with the same frame and the same cells are equal. -/
theorem SameFrame.ext {s t : Sheet} (frame : s.SameFrame t) (same : ∀ a, s.get a = t.get a) :
    s = t := by
  obtain ⟨id, name, rows, cols, cells⟩ := s
  obtain ⟨id', name', rows', cols', cells'⟩ := t
  simp only [mk.injEq]
  exact ⟨frame.id, frame.name, congrFun frame.lines .row, congrFun frame.lines .col,
    Std.ExtTreeMap.ext_getElem? same⟩

theorem sameFrame_set (stores : s.set a c = .ok s') : s'.SameFrame s := by
  rw [eq_of_set stores]
  exact ⟨rfl, rfl, rfl⟩

theorem sameFrame_remove (s : Sheet) (a : Address) : (s.remove a).SameFrame s :=
  ⟨rfl, rfl, rfl⟩

theorem sameFrame_place (e : LineEdit) (s : Sheet) (entry : Address × Cell) :
    (place e s entry).SameFrame s := by
  unfold place
  split
  · exact .refl s
  · split
    · next stores => exact sameFrame_set stores
    · exact .refl s

theorem sameFrame_foldl_place (e : LineEdit) (entries : List (Address × Cell)) (s : Sheet) :
    (entries.foldl (place e) s).SameFrame s := by
  induction entries generalizing s with
  | nil => exact .refl s
  | cons entry entries ih => exact (ih _).trans (sameFrame_place e s entry)

/-- The edited sheet is as large as the old one, which lies in the grid. -/
theorem Fits.sameFrame_applyLineEdit (h : s.Fits) (e : LineEdit) :
    (s.applyLineEdit e).SameFrame s :=
  have frame := sameFrame_foldl_place e s.entries (blank s.id s.name s.rows s.cols)
  ⟨frame.id, frame.name, h.lines_applyLineEdit e⟩

/-! ### A batch is applied as a whole or not at all -/

theorem forM_checkBounds_eq_ok {edits : List Edit} :
    (edits.forM fun e => s.checkBounds e.address) = .ok () ↔
      ∀ e ∈ edits, s.contains e.address := by
  induction edits with
  | nil => simp [pure, Except.pure]
  | cons e edits ih =>
      rw [List.forall_mem_cons, ← checkBounds_eq_ok, ← ih]
      change (s.checkBounds e.address >>= fun _ => _) = _ ↔ _
      cases s.checkBounds e.address <;> simp [bind, Except.bind]

/-- Inside the extent an edit never fails. -/
theorem exists_applyEdit {e : Edit} (inside : s.contains e.address) :
    ∃ s', s.applyEdit e = .ok s' ∧ s'.SameFrame s := by
  unfold applyEdit
  split
  · next c _ =>
      have stores : s.set e.address c = .ok { s with cells := s.cells.insert e.address c } := by
        rw [set, (checkBounds_eq_ok s e.address).mpr inside]
      exact ⟨_, stores, sameFrame_set stores⟩
  · exact ⟨_, rfl, sameFrame_remove s e.address⟩

/-- Edits inside the extent are all applied, in place or not. -/
theorem exists_performEdits {edits : List Edit} (inside : ∀ e ∈ edits, s.contains e.address) :
    ∃ s', edits.foldlM applyEdit s = .ok s' ∧ s.performEdits edits = (.ok (), s') ∧
      s'.SameFrame s := by
  induction edits generalizing s with
  | nil => exact ⟨s, rfl, rfl, .refl s⟩
  | cons e edits ih =>
      obtain ⟨first, behind⟩ := List.forall_mem_cons.mp inside
      obtain ⟨between, applied, frame⟩ := exists_applyEdit first
      obtain ⟨s', folded, performed, frame'⟩ := ih fun e' he' => by
        rw [contains_eq_of_lines frame.lines]
        exact behind e' he'
      refine ⟨s', ?_, ?_, frame'.trans frame⟩
      · rw [List.foldlM_cons, applied]
        exact folded
      · rw [performEdits, applied]
        exact performed

theorem applyEdits_of_refused {edits : List Edit} {fault : AddressError}
    (refused : (edits.forM fun e => s.checkBounds e.address) = .error fault) :
    s.applyEdits edits = .error fault := by
  rw [applyEdits, refused]
  rfl

theorem exists_applyEdits {edits : List Edit}
    (checked : (edits.forM fun e => s.checkBounds e.address) = .ok ()) :
    ∃ s', s.applyEdits edits = .ok s' ∧ s.performEdits edits = (.ok (), s') := by
  obtain ⟨s', folded, performed, -⟩ := exists_performEdits (forM_checkBounds_eq_ok.mp checked)
  refine ⟨s', ?_, performed⟩
  rw [applyEdits, checked]
  exact folded

/-- A batch that is applied in place leaves behind the sheet behind the batch, or if this fails,
the sheet as it was. -/
theorem performBatch_eq (s : Sheet) (edits : List Edit) : s.performBatch edits =
    match s.applyEdits edits with
    | .ok s' => (.ok edits.length, s')
    | .error fault => (.error fault, s) := by
  rw [performBatch]
  cases checked : edits.forM fun e => s.checkBounds e.address with
  | error fault => rw [applyEdits_of_refused checked]
  | ok u =>
      obtain ⟨s', applied, performed⟩ := exists_applyEdits checked
      rw [applied]
      dsimp only
      rw [performed]

theorem sameFrame_performBatch (s : Sheet) (edits : List Edit) :
    (s.performBatch edits).2.SameFrame s := by
  rw [performBatch]
  split
  · next checked =>
      obtain ⟨s', -, performed, frame⟩ := exists_performEdits (forM_checkBounds_eq_ok.mp checked)
      rw [performed]
      exact frame
  · exact .refl s

theorem perform_batch (s : Sheet) (edits : List Edit) : s.perform (.batch edits) =
    match s.applyEdits edits with
    | .ok s' => (.ok (), s')
    | .error fault => (.error fault, s) := by
  rw [perform, performBatch_eq]
  cases s.applyEdits edits <;> rfl

/-- A change that fails leaves the sheet as it was. -/
theorem perform_of_error {change : Operation} {fault : AddressError}
    (failed : (s.perform change).1 = .error fault) : (s.perform change).2 = s := by
  cases change with
  | store a content =>
      unfold perform at failed ⊢
      dsimp only at failed ⊢
      split at failed
      · cases failed
      · rfl
  | remove a => cases failed
  | batch edits =>
      rw [perform_batch] at failed ⊢
      split at failed
      · cases failed
      · rfl
  | lines e => cases failed

/-! ### What no change can break -/

/-- An invariant of storing and removing is one of every change in place. -/
theorem Invariant.perform {Allowed : Cell → Prop} {P : Sheet → Prop} (inv : Invariant Allowed P)
    (made : ∀ content : Content, Allowed content.cell)
    (moved : ∀ {s : Sheet} (e : LineEdit), P s → ∀ entry ∈ s.entries, Allowed (entry.2.adjust e))
    (h : P s) (change : Operation) : P (s.perform change).2 := by
  cases change with
  | store a content =>
      unfold Sheet.perform
      dsimp only
      split
      · next stores => exact inv.set h (made content) stores
      · exact h
  | remove a => exact inv.remove a h
  | batch edits =>
      rw [perform_batch]
      split
      · next applied =>
          refine inv.applyEdits (fun {action c} leaves => ?_) h applied
          cases action with
          | setValue v =>
              cases leaves
              exact made (.literal v)
          | setFormula source =>
              cases leaves
              exact made (.formula source)
          | clear => cases leaves
      · exact h
  | lines e => exact inv.applyLineEdit (moved e h)

theorem Fits.perform (h : s.Fits) (change : Operation) : (s.perform change).2.Fits :=
  invariant_fits.perform (fun _ => trivial) (fun _ _ _ _ => trivial) h change

theorem FromText.perform (h : s.FromText) (change : Operation) : (s.perform change).2.FromText :=
  invariant_fromText.perform Content.fromText_cell
    (fun e h entry mem => (h entry.1 entry.2 (mem_entries.mp mem)).adjust e) h change

/-- No change touches the frame of a sheet that lies in the grid. -/
theorem Fits.sameFrame_perform (h : s.Fits) (change : Operation) :
    (s.perform change).2.SameFrame s := by
  cases change with
  | store a content =>
      unfold Sheet.perform
      dsimp only
      split
      · next stores => exact sameFrame_set stores
      · exact .refl s
  | remove a => exact sameFrame_remove s a
  | batch edits => exact sameFrame_performBatch s edits
  | lines e => exact h.sameFrame_applyLineEdit e

/-- One change after the other, a sheet stays in its frame and in the grid, and keeps its trees
together with their texts. -/
theorem Fits.after (h : s.Fits) (parsed : s.FromText) (changes : List Operation) :
    (s.after changes).Fits ∧ (s.after changes).FromText ∧ (s.after changes).SameFrame s := by
  induction changes generalizing s with
  | nil => exact ⟨h, parsed, .refl s⟩
  | cons change changes ih =>
      obtain ⟨fits, fromText, frame⟩ := ih (h.perform change) (parsed.perform change)
      exact ⟨fits, fromText, frame.trans (h.sameFrame_perform change)⟩

/-- Sheets stay well formed. An empty sheet of any size is brought into the grid, and whatever
changes are then made in place, failing ones included, it keeps its names and its extent; all cells
lie inside the extent, the tree of every formula is read from its text, and a change that fails
leaves the sheet as it was. -/
theorem wellFormed_after (id name : String) (rows cols : Nat) (changes : List Operation) :
    let start := blank id name rows cols
    let s := start.after changes
    (1 ≤ s.rows ∧ s.rows ≤ maxRows) ∧ (1 ≤ s.cols ∧ s.cols ≤ maxCols) ∧
    (s.id = id ∧ s.name = name ∧ s.rows = start.rows ∧ s.cols = start.cols) ∧
    (∀ a c, s.get a = some c → s.contains a) ∧
    (∀ a source tree, s.get a = some (.formula source tree) → Formula.parse source = .ok tree) ∧
    ∀ change fault, (s.perform change).1 = .error fault → (s.perform change).2 = s := by
  intro start s
  obtain ⟨fits, fromText, frame⟩ :=
    (fits_blank id name rows cols).after (fromText_blank id name rows cols) changes
  refine ⟨⟨fits.lines_pos .row, fits.lines_le .row⟩, ⟨fits.lines_pos .col, fits.lines_le .col⟩,
    ⟨frame.id, frame.name, congrFun frame.lines .row, congrFun frame.lines .col⟩, fits.stored,
    ?_, ?_⟩
  · exact fun a source tree stored => fromText a _ stored source tree rfl
  · exact fun change fault failed => perform_of_error failed

/-- A batch whose second edit lies outside a sheet of one column. -/
def straying : Operation :=
  .batch [⟨⟨1, 0⟩, .setFormula "=1+"⟩, ⟨⟨0, 2⟩, .clear⟩]

/-- A formula is stored, a batch fails, and a row is inserted. -/
def interrupted : List Operation :=
  [.store ⟨0, 0⟩ (.formula "=A2"), straying, .lines ⟨.row, .insert, 0⟩]

theorem wellFormed_after_interrupted :
    let s := (blank "s" "S" 3 0).after interrupted
    s.cols = 1 ∧ s.contains ⟨1, 0⟩ ∧
    Formula.parse "=A3" = .ok (.cell ⟨⟨2, 0⟩, false, false⟩) ∧
    (s.perform straying).1 = .error (.colOutOfBounds 2 0) ∧ (s.perform straying).2 = s := by
  obtain ⟨-, -, ⟨-, -, -, cols⟩, inside, parsed, failed⟩ :=
    wellFormed_after "s" "S" 3 0 interrupted
  have tokens : Formula.tokenize "=A2" = [.reference "A2", .finish] := by decide +kernel
  have second : Formula.parse "=A2" = .ok (.cell ⟨⟨1, 0⟩, false, false⟩) := by
    rw [Formula.parse, tokens]
    rfl
  have tokens : Formula.tokenize "=A3" = [.reference "A3", .finish] := by decide +kernel
  have third : Formula.parse "=A3" = .ok (.cell ⟨⟨2, 0⟩, false, false⟩) := by
    rw [Formula.parse, tokens]
    rfl
  have adjusted : Formula.adjust "=A2" ⟨.row, .insert, 0⟩ = "=A3" := by decide +kernel
  have before : ((blank "s" "S" 3 0).after [.store ⟨0, 0⟩ (.formula "=A2"), straying]).get
      ⟨0, 0⟩ = some (.ofFormula "=A2") := rfl
  have stored : ((blank "s" "S" 3 0).after interrupted).get ⟨1, 0⟩ =
      some (.formula "=A3" (.cell ⟨⟨2, 0⟩, false, false⟩)) := by
    have moved : LineEdit.move ⟨.row, .insert, 0⟩ ⟨0, 0⟩ = some ⟨1, 0⟩ := by decide
    have lands := get_applyLineEdit before moved (by decide +kernel)
    rw [Cell.adjust_ofFormula _ second, adjusted, Cell.ofFormula_eq_formula_iff.mpr third] at lands
    exact lands
  have strays : (((blank "s" "S" 3 0).after interrupted).perform straying).1 =
      .error (.colOutOfBounds 2 0) := by decide +kernel
  exact ⟨cols, inside _ _ stored, parsed _ _ _ stored, strays, failed _ _ strays⟩

end Sheet

end Spreadsheet
