import Spreadsheet.Proofs.Reference.Following
import Spreadsheet.Proofs.Sheet.Runs

/-!
# Where cells and references land

An edit of lines takes the cells of a sheet one by one into an empty sheet, and drops a cell that
comes to lie outside of it. References are moved in the texts of the formulas, by a rule of their
own that knows the end of the grid and not the end of the sheet. Still, a relative reference lands
where its cell lands, and where the cell is dropped it is lost or points outside of the sheet.

What lands at an address is found by reading the edit backwards. This names one cell at most, so it
does not matter in which order the cells are taken.
-/

namespace Spreadsheet

namespace Sheet

open LineEdit

variable {s : Sheet} {e : LineEdit} {b : Address} {r r' : Reference}

/-! ### Cells -/

section Entries

variable {entries : List (Address × Cell)}

/-- What lands at an address does not depend on the order in which the cells are taken. -/
theorem get_foldl_place_of_perm (perm : entries.Perm s.entries) :
    (entries.foldl (place e) (blank s.id s.name s.rows s.cols)).get b =
      if (s.applyLineEdit e).contains b then ((e.origin b).bind s.get).map (Cell.adjust e)
      else none := by
  have extent : (entries.foldl (place e) (blank s.id s.name s.rows s.cols)).contains b =
      (s.applyLineEdit e).contains b := by
    apply contains_eq_of_lines
    rw [applyLineEdit, lines_foldl_place, lines_foldl_place]
  split
  · next inside =>
      rw [applyLineEdit, contains_eq_of_lines (lines_foldl_place _ _)] at inside
      cases found : (e.origin b).bind s.get with
      | some c =>
          obtain ⟨a, came, stored⟩ := Option.bind_eq_some_iff.mp found
          have distinct : entries.Pairwise fun x y => x.1 ≠ y.1 :=
            (perm.pairwise_iff Ne.symm).mpr s.pairwise_entries
          exact get_foldl_place distinct (perm.mem_iff.mpr (mem_entries.mpr stored))
            (move_eq_some_iff_origin.mpr came) inside
      | none =>
          rw [get_foldl_place_of_unmoved]
          · simp [get, blank]
          · intro entry mem moved
            have stored : s.get entry.1 = some entry.2 := mem_entries.mp (perm.mem_iff.mp mem)
            rw [move_eq_some_iff_origin.mp moved, Option.bind_some, stored] at found
            cases found
  · next outside =>
      have fits : (entries.foldl (place e) (blank s.id s.name s.rows s.cols)).Fits :=
        invariant_fits.foldl_place (fits_blank s.id s.name s.rows s.cols) fun _ _ => trivial
      rw [Option.eq_none_iff_forall_ne_some]
      intro c found
      exact outside (extent ▸ fits.stored b c found)

/-- The order in which the cells are taken does not matter. -/
theorem foldl_place_of_perm (perm : entries.Perm s.entries) :
    entries.foldl (place e) (blank s.id s.name s.rows s.cols) = s.applyLineEdit e := by
  have frame := sameFrame_foldl_place e entries (blank s.id s.name s.rows s.cols)
  have frame' := sameFrame_foldl_place e s.entries (blank s.id s.name s.rows s.cols)
  refine (frame.trans frame'.symm).ext fun b => ?_
  exact (get_foldl_place_of_perm perm).trans (get_foldl_place_of_perm (.refl s.entries)).symm

end Entries

/-! ### References -/

/-- A relative reference lands where its cell lands. -/
theorem adjust_of_lands (relative : r.fixedOn e.axis = false)
    (inside : (s.applyLineEdit e).contains b) (came : e.origin b = some r.address) :
    r.adjust e = some { r with address := b } := by
  refine adjust_of_move relative (move_eq_some_iff_origin.mpr came) ?_
  calc b.along e.axis
      < (s.applyLineEdit e).lines e.axis := contains_iff_lines.mp inside e.axis
    _ ≤ e.axis.limit := (fits_applyLineEdit s e).lines_le e.axis

theorem adjust_of_closes (relative : r.fixedOn e.axis = false) (closed : e.closes r.address) :
    r.adjust e = none := by
  rw [Option.eq_none_iff_forall_ne_some]
  intro r' adjusted
  have moved := move_of_adjust relative adjusted
  rw [move_eq_none_iff.mpr closed] at moved
  cases moved

/-- A relative reference to a cell that is pushed past the end leaves the sheet as well. -/
theorem not_contains_of_pushesPast (relative : r.fixedOn e.axis = false)
    (past : e.pushesPast s.lines r.address) (adjusted : r.adjust e = some r') :
    ¬ s.contains r'.address := by
  intro inside
  have below := contains_iff_lines.mp inside e.axis
  rw [pushesPast_eq_false (move_of_adjust relative adjusted) below] at past
  cases past

/-- An edit of lines lands every cell where it lands the references to it. At each address of the
edited sheet stands what the edit takes there, in whatever order the cells are taken, and of what
is inside the sheet only a deleted line and what is pushed past the end come to nothing. A relative
reference is moved to the address where its cell lands. It is lost on a deleted line, and lost or
outside of the sheet if the cell is pushed past the end. -/
theorem applyLineEdit_lands (s : Sheet) (e : LineEdit) :
    let t := s.applyLineEdit e
    (s.Fits → t.SameFrame s) ∧
    (∀ b, t.get b =
      if t.contains b then ((e.origin b).bind s.get).map (Cell.adjust e) else none) ∧
    (∀ entries : List (Address × Cell), entries.Perm s.entries →
      entries.foldl (place e) (blank s.id s.name s.rows s.cols) = t) ∧
    (∀ a b, e.move a = some b ↔ e.origin b = some a) ∧
    (∀ a, t.contains a → ((∃ b, e.origin b = some a ∧ t.contains b) ↔
      e.closes a = false ∧ e.pushesPast t.lines a = false)) ∧
    ∀ r : Reference, r.fixedOn e.axis = false → t.contains r.address →
      (∀ b, t.contains b → e.origin b = some r.address →
        r.adjust e = some { r with address := b }) ∧
      (e.closes r.address → r.adjust e = none) ∧
      (e.pushesPast t.lines r.address →
        ∀ r', r.adjust e = some r' → ¬ t.contains r'.address) := by
  intro t
  refine ⟨fun fits => fits.sameFrame_applyLineEdit e, fun b => ?_, fun entries perm => ?_,
    fun a b => move_eq_some_iff_origin, fun a inside => ?_, fun r relative _ => ⟨?_, ?_, ?_⟩⟩
  · exact get_foldl_place_of_perm (.refl s.entries)
  · exact foldl_place_of_perm perm
  · simp only [← move_eq_some_iff_origin, contains_iff_lines] at inside ⊢
    exact exists_move_inside_iff inside
  · exact fun b inside came => adjust_of_lands relative inside came
  · exact adjust_of_closes relative
  · exact fun past r' adjusted => not_contains_of_pushesPast relative past adjusted

/-- A column of three cells that fills its sheet. -/
def brimful : Sheet :=
  (blank "brimful" "Brimful" 3 1).after
    [.store ⟨0, 0⟩ (.formula "=A2+A3"), .store ⟨1, 0⟩ (.formula "=A3"),
      .store ⟨2, 0⟩ (.literal (.text "last"))]

theorem fits_brimful : brimful.Fits :=
  ((fits_blank "brimful" "Brimful" 3 1).after (fromText_blank "brimful" "Brimful" 3 1) _).1

/-- A row is inserted below the first one. The second cell comes to the third row, and so do the
references to it; the last one falls off, and a reference to it points below the sheet. -/
theorem applyLineEdit_lands_brimful :
    let t := brimful.applyLineEdit ⟨.row, .insert, 1⟩
    t.SameFrame brimful ∧
    t.get ⟨2, 0⟩ = some (.ofFormula "=A4") ∧ t.get ⟨1, 0⟩ = none ∧
    Reference.adjust ⟨⟨1, 0⟩, false, false⟩ ⟨.row, .insert, 1⟩ = some ⟨⟨2, 0⟩, false, false⟩ ∧
    Reference.adjust ⟨⟨2, 0⟩, false, false⟩ ⟨.row, .insert, 1⟩ = some ⟨⟨3, 0⟩, false, false⟩ ∧
    ¬ t.contains ⟨3, 0⟩ ∧
    Reference.adjust ⟨⟨2, 0⟩, false, false⟩ ⟨.row, .delete, 2⟩ = none := by
  have inside (e : LineEdit) (b : Address) (h : b.row < 3 ∧ b.col < 1) :
      (brimful.applyLineEdit e).contains b := by
    rw [fits_brimful.contains_applyLineEdit]
    exact contains_iff_lines.mpr (Axis.forall_iff.mpr h)
  obtain ⟨frame, found, -, -, -, inserted⟩ := applyLineEdit_lands brimful ⟨.row, .insert, 1⟩
  obtain ⟨-, -, -, -, -, deleted⟩ := applyLineEdit_lands brimful ⟨.row, .delete, 2⟩
  obtain ⟨lands, -, -⟩ := inserted ⟨⟨1, 0⟩, false, false⟩ rfl (inside _ _ (by decide))
  obtain ⟨-, -, past⟩ := inserted ⟨⟨2, 0⟩, false, false⟩ rfl (inside _ _ (by decide))
  obtain ⟨-, lost, -⟩ := deleted ⟨⟨2, 0⟩, false, false⟩ rfl (inside _ _ (by decide))
  have pushed : Reference.adjust ⟨⟨2, 0⟩, false, false⟩ ⟨.row, .insert, 1⟩ =
      some ⟨⟨3, 0⟩, false, false⟩ := by decide
  have tokens : Formula.tokenize "=A3" = [.reference "A3", .finish] := by decide +kernel
  have parsed : Formula.parse "=A3" = .ok (.cell ⟨⟨2, 0⟩, false, false⟩) := by
    rw [Formula.parse, tokens]
    rfl
  have adjusted : Formula.adjust "=A3" ⟨.row, .insert, 1⟩ = "=A4" := by decide +kernel
  have stored : brimful.get ⟨1, 0⟩ = some (.ofFormula "=A3") := rfl
  refine ⟨frame fits_brimful, ?_, ?_, lands ⟨2, 0⟩ (inside _ _ (by decide)) rfl, pushed,
    past ?_ _ pushed, lost (by decide)⟩
  · have source : LineEdit.origin ⟨.row, .insert, 1⟩ ⟨2, 0⟩ = some ⟨1, 0⟩ := by decide
    rw [found, if_pos (inside _ _ (by decide)), source, Option.bind_some, stored, Option.map_some,
      Cell.adjust_ofFormula _ parsed, adjusted]
  · have source : LineEdit.origin ⟨.row, .insert, 1⟩ ⟨1, 0⟩ = none := by decide
    rw [found, source, Option.bind_none, Option.map_none, ite_self]
  · rw [fits_brimful.lines_applyLineEdit]
    rfl

end Sheet

end Spreadsheet
