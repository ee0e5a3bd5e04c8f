import Spreadsheet.Proofs.Formula.Relative
import Spreadsheet.Proofs.Reference.Following
import Spreadsheet.Proofs.Sheet.Fitting
import Spreadsheet.Proofs.Sheet.FromText

/-!
# What an edit of lines makes of a sheet

If formulas are written without dollar signs and point at the extent only, and if an edit of lines
keeps what they point at, then the edited sheet is the old one in new places: each formula stands
where the edit takes its cell, its targets are the moved targets, and it reads a moved cell exactly
if the old formula reads the cell.
-/

namespace Spreadsheet

open Formula

/-- Whether the formulas of a sheet can follow an edit of lines: their trees are read from their
texts, these have neither dollar signs nor blanks beside colons, and all references point at the
extent. -/
structure Sheet.Movable (s : Sheet) : Prop where
  fits : s.Fits
  fromText : s.FromText
  unmarked : ∀ entry ∈ s.entries, ∀ source ∈ entry.2.source?, '$' ∉ source.toList
  tight : ∀ entry ∈ s.entries, ∀ source ∈ entry.2.source?, TightColons source.toList
  inside : ∀ a ∈ s.formulas, ∀ tree ∈ s.treeAt a, ∀ t ∈ tree.targets, ∀ r ∈ t.ends,
    s.contains r.address

/-- Whether an edit of lines keeps the cells of a sheet and the targets of its formulas. -/
structure Sheet.KeptBy (s : Sheet) (edit : LineEdit) : Prop where
  cells : ∀ entry ∈ s.entries, edit.Keeps s.lines (Range.single entry.1)
  targets : ∀ a ∈ s.formulas, ∀ tree ∈ s.treeAt a, ∀ t ∈ tree.targets,
    edit.Keeps s.lines t.range

/-- A relative target that an edit keeps covers the moved cells of the old target afterwards. -/
theorem Target.exists_redirect {t : Target} {edit : LineEdit} {lines : Axis → Nat}
    (relative : ∀ r ∈ t.ends, r.Relative) (inside : ∀ r ∈ t.ends, ∀ axis, r.along axis < lines axis)
    (grid : ∀ axis, lines axis ≤ axis.limit) (keeps : edit.Keeps lines t.range) :
    ∃ t', t.redirect (adjusting edit) = some t' ∧
      (∀ r ∈ t'.ends, ∀ axis, r.along axis < lines axis) ∧
      ∀ x y, edit.move x = some y → (t'.range.contains y ↔ t.range.contains x) := by
  cases t with
  | lone r =>
      obtain ⟨r', adjusted, below, moved⟩ := LineEdit.exists_adjust (relative r (by simp [ends]))
        (inside r (by simp [ends])) grid keeps
      refine ⟨.lone r', ?_, by simpa [ends] using below, fun x y hxy => ?_⟩
      · simp [redirect, adjusting, adjusted]
      · simp only [range, Range.contains_single]
        constructor
        · rintro rfl
          exact LineEdit.move_injective hxy moved
        · rintro rfl
          exact Option.some.inj (hxy.symm.trans moved)
  | pair first second =>
      obtain ⟨a, b, adjusted, below, below', covers⟩ := LineEdit.exists_adjustRange
        (relative first (by simp [ends])) (relative second (by simp [ends]))
        (inside first (by simp [ends])) (inside second (by simp [ends])) grid keeps
      refine ⟨.pair a b, ?_, by simpa [ends] using ⟨below, below'⟩, covers⟩
      simp [redirect, adjusting, adjusted]

namespace Sheet

variable {s : Sheet} {edit : LineEdit} {a a' b b' : Address} {source : String} {tree : Expr}

theorem KeptBy.keeps_target (kept : s.KeptBy edit)
    (stored : s.get a = some (.formula source tree)) {t : Target} (ht : t ∈ tree.targets) :
    edit.Keeps s.lines t.range :=
  kept.targets a (mem_formulas.mpr ⟨source, tree, stored⟩) tree
    (treeAt_eq_some.mpr ⟨source, stored⟩) t ht

section Edited

variable (movable : s.Movable) (kept : s.KeptBy edit)

include movable

theorem Movable.contains_applyLineEdit :
    (s.applyLineEdit edit).contains b ↔ s.contains b := by
  rw [movable.fits.contains_applyLineEdit]

/-- The references of a formula are relative. -/
theorem Movable.relative (stored : s.get a = some (.formula source tree)) : tree.Relative :=
  relative_of_unmarked (movable.fromText a _ stored source tree rfl)
    (movable.unmarked _ (mem_entries.mpr stored) source rfl)

/-- Adjusting the text of a formula redirects its tree. -/
theorem Movable.adjust_eq (stored : s.get a = some (.formula source tree)) (edit : LineEdit) :
    Cell.adjust edit (.formula source tree) =
      .formula (Formula.adjust source edit) (tree.redirect (adjusting edit)) := by
  have mem := mem_entries.mpr stored
  rw [Cell.adjust, Cell.ofFormula_eq_formula_iff]
  exact parse_redirected (staysOnGrid_adjusting edit) (movable.fromText a _ stored source tree rfl)
    (isLettered_of_unmarked (movable.unmarked _ mem source rfl)) (movable.tight _ mem source rfl)

theorem Movable.target_inside (stored : s.get a = some (.formula source tree)) {t : Target}
    (ht : t ∈ tree.targets) {r : Reference} (hr : r ∈ t.ends) : s.contains r.address :=
  movable.inside a (mem_formulas.mpr ⟨source, tree, stored⟩) tree
    (treeAt_eq_some.mpr ⟨source, stored⟩) t ht r hr

/-- All cells that a target covers lie in the extent. -/
theorem Movable.extent_contains (stored : s.get a = some (.formula source tree)) {t : Target}
    (ht : t ∈ tree.targets) {b : Address} (hb : t.range.contains b) : s.extent.contains b :=
  t.contains_of_ends (fun _ hr => Sheet.extent_contains (movable.target_inside stored ht hr)) hb

include kept

/-- Every stored cell moves inside the extent. -/
theorem KeptBy.exists_move {c : Cell} (stored : s.get a = some c) :
    ∃ b, edit.move a = some b ∧ (s.applyLineEdit edit).contains b := by
  obtain ⟨b, moved, below⟩ := LineEdit.exists_move
    (contains_iff_lines.mp (movable.fits.stored a c stored)) (kept.cells _ (mem_entries.mpr stored))
  refine ⟨b, moved, ?_⟩
  rw [movable.contains_applyLineEdit, contains_iff_lines]
  exact below

/-- What a formula points at on its own moves. -/
theorem KeptBy.exists_move_lone (stored : s.get a = some (.formula source tree)) {r : Reference}
    (ht : .lone r ∈ tree.targets) : ∃ b, edit.move r.address = some b := by
  have inside := movable.target_inside stored ht List.mem_cons_self
  obtain ⟨b, moved, -⟩ := LineEdit.exists_move (contains_iff_lines.mp inside)
    (kept.keeps_target stored ht)
  exact ⟨b, moved⟩

/-- Nothing is stored at an address that is lost. -/
theorem KeptBy.get_eq_none (unmoved : edit.move a = none) : s.get a = none := by
  cases stored : s.get a with
  | none => rfl
  | some c =>
      obtain ⟨b, moved, -⟩ := kept.exists_move movable stored
      rw [unmoved] at moved
      cases moved

/-- What stands at a moved address is what stood there before, adjusted. -/
theorem KeptBy.get_moved (moved : edit.move a = some b) :
    (s.applyLineEdit edit).get b = (s.get a).map (Cell.adjust edit) := by
  cases stored : s.get a with
  | some c =>
      obtain ⟨b', moved', inside⟩ := kept.exists_move movable stored
      obtain rfl : b = b' := Option.some.inj (moved.symm.trans moved')
      exact get_applyLineEdit stored moved inside
  | none =>
      apply get_applyLineEdit_of_unmoved
      intro a' c stored' moved'
      rw [LineEdit.move_injective moved' moved, stored] at stored'
      cases stored'

theorem KeptBy.get_formula (stored : s.get a = some (.formula source tree))
    (moved : edit.move a = some b) : (s.applyLineEdit edit).get b =
      some (.formula (Formula.adjust source edit) (tree.redirect (adjusting edit))) := by
  rw [kept.get_moved movable moved, stored, Option.map_some, movable.adjust_eq stored]

/-- The formulas of the edited sheet are the moved formulas. -/
theorem KeptBy.mem_formulas_iff :
    b ∈ (s.applyLineEdit edit).formulas ↔ ∃ a ∈ s.formulas, edit.move a = some b := by
  constructor
  · intro hb
    obtain ⟨source, tree, found⟩ := mem_formulas.mp hb
    by_cases image : ∃ a c, s.get a = some c ∧ edit.move a = some b
    · obtain ⟨a, c, stored, moved⟩ := image
      refine ⟨a, ?_, moved⟩
      rw [kept.get_moved movable moved, stored, Option.map_some] at found
      cases c with
      | formula source tree => exact mem_formulas.mpr ⟨source, tree, stored⟩
      | literal v => simp [Cell.adjust] at found
      | error code message => simp [Cell.adjust] at found
    · rw [get_applyLineEdit_of_unmoved] at found
      · cases found
      · exact fun a c stored moved => image ⟨a, c, stored, moved⟩
  · rintro ⟨a, ha, moved⟩
    obtain ⟨source, tree, stored⟩ := mem_formulas.mp ha
    exact mem_formulas.mpr ⟨_, _, kept.get_formula movable stored moved⟩

/-- The redirected target of a formula lies in the extent and covers the moved cells of the old
target. -/
theorem KeptBy.exists_redirect (stored : s.get a = some (.formula source tree)) {t : Target}
    (ht : t ∈ tree.targets) :
    ∃ t', t.redirect (adjusting edit) = some t' ∧
      (∀ y, t'.range.contains y → (s.applyLineEdit edit).extent.contains y) ∧
      ∀ x y, edit.move x = some y → (t'.range.contains y ↔ t.range.contains x) := by
  obtain ⟨t', redirected, inside, covers⟩ := Target.exists_redirect (movable.relative stored t ht)
    (fun r hr => contains_iff_lines.mp (movable.target_inside stored ht hr)) movable.fits.lines_le
    (kept.keeps_target stored ht)
  refine ⟨t', redirected, fun y hy => ?_, covers⟩
  refine t'.contains_of_ends (fun r hr => Sheet.extent_contains ?_) hy
  rw [movable.contains_applyLineEdit, contains_iff_lines]
  exact inside r hr

/-- Between moved cells the edited sheet has no other references than the old one. -/
theorem KeptBy.mem_readsOf (ha : a ∈ s.formulas) (moved : edit.move a = some b)
    (inside : s.contains a') (moved' : edit.move a' = some b')
    (reads : b' ∈ (s.applyLineEdit edit).readsOf b) : a' ∈ s.readsOf a := by
  obtain ⟨source, tree, stored⟩ := mem_formulas.mp ha
  rw [Sheet.mem_readsOf (kept.get_formula movable stored moved), Expr.mem_mentions,
    Expr.targets_redirect] at reads
  obtain ⟨-, t', ht', covered⟩ := reads
  obtain ⟨t, ht, redirected⟩ := List.mem_filterMap.mp ht'
  obtain ⟨t'', redirected', -, covers⟩ := kept.exists_redirect movable stored ht
  obtain rfl : t' = t'' := Option.some.inj (redirected.symm.trans redirected')
  rw [Sheet.mem_readsOf stored, Expr.mem_mentions]
  exact ⟨Sheet.extent_contains inside, t, ht, (covers a' b' moved').mp covered⟩

end Edited

end Sheet

end Spreadsheet
