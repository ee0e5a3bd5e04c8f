import Spreadsheet.Proofs.Evaluation.Alike
import Spreadsheet.Proofs.Evaluation.Solution
import Spreadsheet.Proofs.Evaluation.Unfolding
import Spreadsheet.Proofs.Sheet.Redirected

/-!
# Edits of lines preserve results

Inserting an empty line, or deleting one, moves formulas and rewrites them, and ranges grow or
shrink by empty cells. On a sheet without circles every formula has the same result in its new
place: the cells of the sheet are compared in the order of a pass, each after those that it reads.
-/

namespace Spreadsheet

open Formula

/-! ### Reading inside the extent -/

namespace Surroundings

variable {s : Surroundings}

theorem cell_of_inside {a : Address} (h : s.extent.contains a) : s.cell a = s.read a :=
  if_pos h

theorem range_of_inside {r : Range} (h : ∀ a, r.contains a → s.extent.contains a) :
    s.range r = r.cells.mapM s.cell := by
  rw [range, Range.intersection_eq_self h, inside]
  simp

end Surroundings

/-! ### Results that are alike -/

theorem Alike.sameUpToMessage {x y : Except Failure Value} (h : Alike Eq x y) :
    (Outcome.ofResult x).SameUpToMessage (Outcome.ofResult y) := by
  cases h with
  | ok same => exact same
  | error same => exact same

theorem Alike.read {x y : Except Failure Value} (h : Alike Eq x y) (a b : Address) :
    Alike Eq ((Outcome.ofResult x).read a) ((Outcome.ofResult y).read b) := by
  cases h with
  | ok same => exact .ok same
  | error same => exact .error same

namespace Sheet

variable {s : Sheet} {edit : LineEdit} {a b : Address} {source : String} {tree : Expr}
  {options : Options} {o o' : Outcomes}

theorem shown_of_get_eq_none (h : s.get a = none) : s.shown o a = .ok .empty := by
  rw [shown, h]

section Moved

variable (movable : s.Movable) (kept : s.KeptBy edit)

include movable kept

/-- References of the edited sheet lead back only if those of the old sheet do. -/
theorem KeptBy.acyclic (acyclic : s.Acyclic) : (s.applyLineEdit edit).Acyclic := by
  have back : ∀ b b', Relation.TransGen (s.applyLineEdit edit).Reads b b' →
      b' ∈ (s.applyLineEdit edit).formulas →
      ∃ a a', edit.move a = some b ∧ edit.move a' = some b' ∧ Relation.TransGen s.Reads a a' := by
    intro b b' path
    have origin {c : Address} (hc : c ∈ (s.applyLineEdit edit).formulas) :=
      (kept.mem_formulas_iff movable).mp hc
    induction path with
    | single reads =>
        intro hb'
        obtain ⟨a, ha, moved⟩ := origin reads.mem_formulas
        obtain ⟨a', ha', moved'⟩ := origin hb'
        have inside := movable.fits.contains_of_mem_formulas ha'
        exact ⟨a, a', moved, moved',
          .single (kept.mem_readsOf movable ha moved inside moved' reads)⟩
    | tail _ reads ih =>
        intro hb'
        obtain ⟨a, c, moved, between, path⟩ := ih reads.mem_formulas
        obtain ⟨c', hc, between'⟩ := origin reads.mem_formulas
        obtain rfl : c = c' := LineEdit.move_injective between between'
        obtain ⟨a', ha', moved'⟩ := origin hb'
        have inside := movable.fits.contains_of_mem_formulas ha'
        exact ⟨a, a', moved, moved',
          path.tail (kept.mem_readsOf movable hc between inside moved' reads)⟩
  intro b circle
  obtain ⟨c, reads, -⟩ := Relation.TransGen.head'_iff.mp circle
  obtain ⟨a, a', moved, moved', path⟩ := back b b circle reads.mem_formulas
  obtain rfl : a = a' := LineEdit.move_injective moved moved'
  exact acyclic a path

/-- A cell without a formula shows the same in its new place. -/
theorem KeptBy.shown_alike_of_not_formula (moved : edit.move a = some b) (h : a ∉ s.formulas) :
    Alike Eq (s.shown o a) ((s.applyLineEdit edit).shown o' b) := by
  rw [shown, shown, kept.get_moved movable moved]
  cases stored : s.get a with
  | none => exact .ok rfl
  | some c =>
      cases c with
      | literal v => exact .ok rfl
      | error code message => exact .error rfl
      | formula source tree => exact absurd (mem_formulas.mpr ⟨source, tree, stored⟩) h

/-- A target of a formula reads alike on both sheets if the cells do that it covers. -/
theorem KeptBy.readsAlike (stored : s.get a = some (.formula source tree)) {t : Target}
    (ht : t ∈ tree.targets) (read : ∀ x ∈ s.readsOf a, ∀ y, edit.move x = some y →
      Alike Eq (s.shown o x) ((s.applyLineEdit edit).shown o' y)) :
    t.ReadsAlike (adjusting edit) (s.solved options o)
      ((s.applyLineEdit edit).solved options o') := by
  obtain ⟨t', redirected, inside', covers⟩ := kept.exists_redirect movable stored ht
  have inside (x : Address) (hx : t.range.contains x) : s.extent.contains x :=
    movable.extent_contains stored ht hx
  have cells (x : Address) (hx : t.range.contains x) (y : Address) (moved : edit.move x = some y) :
      Alike Eq ((s.solved options o).cell x)
        (((s.applyLineEdit edit).solved options o').cell y) := by
    have reads : x ∈ s.readsOf a := by
      rw [Sheet.mem_readsOf stored, Expr.mem_mentions]
      exact ⟨inside x hx, t, ht, hx⟩
    rw [Surroundings.cell_of_inside (inside x hx),
      Surroundings.cell_of_inside (inside' y ((covers x y moved).mpr hx))]
    exact read x reads y moved
  cases t with
  | lone r =>
      obtain ⟨r', adjusted, rfl⟩ := Option.map_eq_some_iff.mp redirected
      have covered : (Range.single r.address).contains r.address := Range.contains_single.mpr rfl
      obtain ⟨y, moved⟩ := kept.exists_move_lone movable stored ht
      have target : y = r'.address :=
        Range.contains_single.mp ((covers r.address y moved).mpr covered)
      subst target
      exact ⟨r', adjusted, cells r.address covered r'.address moved⟩
  | pair first second =>
      obtain ⟨moved, adjusted, rfl⟩ := Option.map_eq_some_iff.mp redirected
      refine ⟨moved, adjusted, ?_⟩
      have reading : (s.solved options o).range (first.rectangle second) = _ :=
        Surroundings.range_of_inside inside
      have reading' : ((s.applyLineEdit edit).solved options o').range
          (moved.1.rectangle moved.2) = _ := Surroundings.range_of_inside inside'
      rw [reading, reading']
      refine Alike.mapM_moved (LineEdit.filterMap_move_cells covers) ?_ ?_ ?_
      · intro x hx unmoved
        rw [Surroundings.cell_of_inside (inside x (Range.mem_cells.mp hx))]
        exact shown_of_get_eq_none (kept.get_eq_none movable unmoved)
      · exact fun x hx => cells x (Range.mem_cells.mp hx)
      · intro y hy opened
        rw [Surroundings.cell_of_inside (inside' y (Range.mem_cells.mp hy))]
        refine shown_of_get_eq_none (get_applyLineEdit_of_unmoved fun x c _ moved => ?_)
        rw [LineEdit.exists_move_iff.mp ⟨x, moved⟩] at opened
        cases opened

/-- A cell has alike results on both sheets if the cells have that it reads. -/
theorem KeptBy.follow_alike (ha : a ∈ s.formulas) (moved : edit.move a = some b)
    (read : ∀ x ∈ s.readsOf a, ∀ y, edit.move x = some y →
      Alike Eq (s.shown o x) ((s.applyLineEdit edit).shown o' y)) :
    Alike Eq (s.follow options (s.shown o) a)
      ((s.applyLineEdit edit).follow options ((s.applyLineEdit edit).shown o') b) := by
  obtain ⟨source, tree, stored⟩ := mem_formulas.mp ha
  rw [follow, follow, stored, kept.get_formula movable stored moved]
  exact Expr.value_alike tree fun t ht => kept.readsAlike movable stored ht read

end Moved

end Sheet

namespace Evaluator

open Sheet

variable {e : Evaluator} {s : Sheet} {edit : LineEdit} {a b : Address}

theorem shown_of_acyclic (acyclic : s.Acyclic) (ha : a ∈ s.formulas) :
    s.shown (e.evaluateSheet s).1 a =
      (Outcome.ofResult (s.follow e.options (s.shown (e.evaluateSheet s).1) a)).read a := by
  obtain ⟨source, tree, stored⟩ := mem_formulas.mp ha
  rw [shown, stored, outcome_of_acyclic acyclic ha]
  rfl

section Moved

variable (movable : s.Movable) (acyclic : s.Acyclic) (kept : s.KeptBy edit)

include movable acyclic kept

/-- The cells of a pass show alike results in their new places, one after the other. -/
theorem shown_alike_of_passed {later earlier : List Address}
    (split : e.passed s = later ++ earlier) : ∀ a ∈ earlier, ∀ b, edit.move a = some b →
      Alike Eq (s.shown (e.evaluateSheet s).1 a)
        ((s.applyLineEdit edit).shown (e.evaluateSheet (s.applyLineEdit edit)).1 b) := by
  induction earlier generalizing later with
  | nil => exact fun a ha => absurd ha List.not_mem_nil
  | cons c earlier ih =>
      have settled := @ih (later ++ [c]) (by simp [split])
      intro a ha b moved
      rcases List.mem_cons.mp ha with rfl | ha
      · by_cases formula : a ∈ s.formulas
        · rw [shown_of_acyclic acyclic formula, shown_of_acyclic (kept.acyclic movable acyclic)
            ((kept.mem_formulas_iff movable).mpr ⟨a, formula, moved⟩)]
          refine (kept.follow_alike movable formula moved fun x hx y hxy => ?_).read a b
          exact settled x (mem_earlier acyclic split hx) y hxy
        · exact kept.shown_alike_of_not_formula movable moved formula
      · exact settled a ha b moved

/-- Every cell shows alike results on both sheets. -/
theorem shown_alike (moved : edit.move a = some b) : Alike Eq (s.shown (e.evaluateSheet s).1 a)
    ((s.applyLineEdit edit).shown (e.evaluateSheet (s.applyLineEdit edit)).1 b) := by
  by_cases formula : a ∈ s.formulas
  · exact shown_alike_of_passed movable acyclic kept (List.nil_append _).symm a
      (mem_passed formula) b moved
  · exact kept.shown_alike_of_not_formula movable moved formula

end Moved

/-- Inserting or deleting a line preserves results. On a sheet without circles whose formulas can
follow, and for an edit that keeps all cells and all that the formulas point at, the formulas of the
edited sheet are the moved formulas, and each of them has the same value as before, or an error with
the same code. -/
theorem evaluateSheet_applyLineEdit (e : Evaluator) (s : Sheet) (edit : LineEdit)
    (movable : s.Movable) (acyclic : s.Acyclic) (kept : s.KeptBy edit) :
    (∀ b, b ∈ (e.evaluateSheet (s.applyLineEdit edit)).1 ↔
      ∃ a ∈ s.formulas, edit.move a = some b) ∧
    ∀ a ∈ s.formulas, ∃ b o o', edit.move a = some b ∧ (e.evaluateSheet s).1[a]? = some o ∧
      (e.evaluateSheet (s.applyLineEdit edit)).1[b]? = some o' ∧ o.SameUpToMessage o' := by
  refine ⟨fun b => mem_evaluateSheet.trans (kept.mem_formulas_iff movable), fun a ha => ?_⟩
  obtain ⟨source, tree, stored⟩ := mem_formulas.mp ha
  obtain ⟨b, moved, -⟩ := kept.exists_move movable stored
  have hb : b ∈ (s.applyLineEdit edit).formulas :=
    (kept.mem_formulas_iff movable).mpr ⟨a, ha, moved⟩
  refine ⟨b, _, _, moved, outcome_of_acyclic acyclic ha,
    outcome_of_acyclic (kept.acyclic movable acyclic) hb, ?_⟩
  apply Alike.sameUpToMessage
  exact kept.follow_alike movable ha moved fun x _ y hxy =>
    shown_alike movable acyclic kept hxy

end Evaluator

/-- A sheet with a sum over a range that holds empty rows, and a division by an empty cell. -/
def Sheet.ledger : Sheet :=
  { Sheet.blank "ledger" "Ledger" 6 3 with
    cells := ((((∅ : AddressMap Cell).insert ⟨0, 0⟩ (.literal (.number 1))).insert ⟨1, 0⟩
      (.literal (.number 2))).insert ⟨0, 1⟩ (.ofFormula "=SUM(A1:A4)*A2")).insert ⟨4, 1⟩
      (.ofFormula "=B1/A4") }

theorem Sheet.fits_ledger : Sheet.ledger.Fits where
  lines_pos axis := by cases axis <;> decide +kernel
  lines_le axis := by cases axis <;> decide +kernel
  stored a c stored := by
    have inside : ∀ entry ∈ Sheet.ledger.entries, Sheet.ledger.contains entry.1 := by
      decide +kernel
    exact inside _ (mem_entries.mpr stored)

theorem Sheet.fromText_ledger : Sheet.ledger.FromText :=
  ((((fromText_blank "ledger" "Ledger" 6 3).insert (Cell.fromText_literal _)).insert
    (Cell.fromText_literal _)).insert (Cell.fromText_ofFormula _)).insert (Cell.fromText_ofFormula _)

theorem Sheet.movable_ledger : Sheet.ledger.Movable where
  fits := fits_ledger
  fromText := fromText_ledger
  unmarked := by decide +kernel
  tight := by decide +kernel
  inside := by decide +kernel

theorem Sheet.acyclic_ledger : Sheet.ledger.Acyclic :=
  acyclic_of_rank (fun a => 10 * a.col + a.row) (by decide +kernel)

/-- A row is inserted in front of the second one, or the third one is deleted, which is empty. -/
theorem Evaluator.evaluateSheet_applyLineEdit_ledger :
    Sheet.ledger.KeptBy ⟨.row, .insert, 1⟩ ∧ Sheet.ledger.KeptBy ⟨.row, .delete, 2⟩ ∧
    (∃ b o o', LineEdit.move ⟨.row, .insert, 1⟩ ⟨4, 1⟩ = some b ∧
      (({} : Evaluator).evaluateSheet Sheet.ledger).1[(⟨4, 1⟩ : Address)]? = some o ∧
      (({} : Evaluator).evaluateSheet (Sheet.ledger.applyLineEdit ⟨.row, .insert, 1⟩)).1[b]? =
        some o' ∧ o.SameUpToMessage o') ∧
    ∃ b o o', LineEdit.move ⟨.row, .delete, 2⟩ ⟨4, 1⟩ = some b ∧
      (({} : Evaluator).evaluateSheet Sheet.ledger).1[(⟨4, 1⟩ : Address)]? = some o ∧
      (({} : Evaluator).evaluateSheet (Sheet.ledger.applyLineEdit ⟨.row, .delete, 2⟩)).1[b]? =
        some o' ∧ o.SameUpToMessage o' := by
  have formula : ⟨4, 1⟩ ∈ Sheet.ledger.formulas := by decide +kernel
  have inserted : Sheet.ledger.KeptBy ⟨.row, .insert, 1⟩ := ⟨by decide +kernel, by decide +kernel⟩
  have deleted : Sheet.ledger.KeptBy ⟨.row, .delete, 2⟩ := ⟨by decide +kernel, by decide +kernel⟩
  refine ⟨inserted, deleted, ?_, ?_⟩
  · exact (evaluateSheet_applyLineEdit {} Sheet.ledger ⟨.row, .insert, 1⟩ Sheet.movable_ledger
      Sheet.acyclic_ledger inserted).2 ⟨4, 1⟩ formula
  · exact (evaluateSheet_applyLineEdit {} Sheet.ledger ⟨.row, .delete, 2⟩ Sheet.movable_ledger
      Sheet.acyclic_ledger deleted).2 ⟨4, 1⟩ formula

end Spreadsheet
