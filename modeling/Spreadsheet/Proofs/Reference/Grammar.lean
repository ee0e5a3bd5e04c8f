import Spreadsheet.Proofs.Reference.Numerals

/-!
# Which texts are references

A text is a reference exactly if, without the blanks around it, it is put together from an
optional dollar sign, letters, an optional dollar sign and digits, and if the letters and the
digits are numerals of a column and of a row of the grid. The reference is then settled by these
parts, and its canonical form is the same text in upper case, without zeros in front of the row.
-/

namespace Spreadsheet

/-- Whether a spelling has the form of a reference and its numerals are those of `r`. -/
structure Spelling.Names (s : Spelling) (r : Reference) : Prop where
  letters_ne_nil : s.letters ≠ []
  letters : ∀ c ∈ s.letters, c.isAlpha
  digits_ne_nil : s.digits ≠ []
  digits : ∀ c ∈ s.digits, c.isDigit
  col : Column.value s.letters = r.address.col + 1
  row : Nat.ofDigitChars 10 s.digits 0 = r.address.row + 1
  colFixed : s.colFixed = r.colFixed
  rowFixed : s.rowFixed = r.rowFixed

/-- The spelling in upper case, without zeros in front of the row. -/
def Spelling.canonical (s : Spelling) : Spelling :=
  { s with letters := Text.upper s.letters, digits := s.digits.dropWhile (· == '0') }

variable {s : Spelling} {r : Reference} {cs : List Char}

theorem Spelling.Names.numbered (h : s.Names r) : s.Numbered where
  letters := h.letters
  digits := h.digits
  digits_ne_nil := h.digits_ne_nil
  colFixed_of_no_letters none := absurd none h.letters_ne_nil

/-- The written form of a reference is the canonical one of all its spellings. -/
theorem Spelling.Names.canonical_eq (h : s.Names r) : s.canonical = r.spelling := by
  have letters : Text.upper s.letters = Column.letters r.address.col := by
    rw [Column.letters, ← h.col, Column.numeral_value h.letters]
  have digits : s.digits.dropWhile (· == '0') = Nat.toDigits 10 (r.address.row + 1) := by
    have positive : 0 < Nat.ofDigitChars 10 s.digits 0 := by
      rw [h.row]
      exact Nat.succ_pos _
    rw [← h.row, Reference.toDigits_ofDigitChars h.digits positive]
  rw [Spelling.canonical, Reference.spelling, letters, digits, h.colFixed, h.rowFixed]

namespace Reference

theorem readTrimmed_eq_ok_iff :
    readTrimmed cs = .ok r ↔ r.InGrid ∧ ∃ s : Spelling, cs = s.chars ∧ s.Names r := by
  constructor
  · intro h
    obtain ⟨nonempty, hcol, hrow, colFixed, rowFixed⟩ := readTrimmed_eq_ok h
    have whole := Spelling.chars_append_split cs
    have parts := Spelling.endsBefore_split cs
    generalize Spelling.split cs = found at *
    obtain ⟨s, rest⟩ := found
    obtain ⟨-, letters, value, onGrid⟩ := Column.ofLetters_eq_ok_iff.mp hcol
    obtain ⟨digits_ne_nil, digits, number, onGrid'⟩ := readRow_eq_ok_iff.mp hrow
    -- Digits go on to the end of the text, so the split leaves nothing.
    have none : rest = [] := by
      cases rest with
      | nil => rfl
      | cons c rest => exact absurd (digits c (by simp)) (parts.boundary c rfl)
    subst none
    simp only [List.append_nil] at whole digits_ne_nil digits number
    exact ⟨⟨onGrid', onGrid⟩, s, whole.symm,
      ⟨nonempty, letters, digits_ne_nil, digits, value, number, colFixed.symm, rowFixed.symm⟩⟩
  · rintro ⟨onGrid, s, rfl, names⟩
    have split : Spelling.split (s.chars ++ []) = (s, []) := names.numbered.split_append (by simp)
    rw [List.append_nil] at split
    have nonempty : s.chars ≠ [] := by
      intro empty
      rw [empty] at split
      cases split
      exact names.letters_ne_nil rfl
    have hcol : Column.ofLetters s.letters = .ok r.address.col :=
      Column.ofLetters_eq_ok_iff.mpr ⟨names.letters_ne_nil, names.letters, names.col, onGrid.col⟩
    have hrow : readRow s.chars s.digits = .ok r.address.row :=
      readRow_eq_ok_iff.mpr ⟨names.digits_ne_nil, names.digits, names.row, onGrid.row⟩
    simp [readTrimmed, nonempty, split, names.letters_ne_nil, hcol, hrow, names.colFixed,
      names.rowFixed]

/-- A text is read as a reference exactly if it spells it, up to blanks around it. -/
theorem ofChars_eq_ok_iff :
    ofChars cs = .ok r ↔ r.InGrid ∧ ∃ s : Spelling, Text.trim cs = s.chars ∧ s.Names r :=
  readTrimmed_eq_ok_iff

end Reference

end Spreadsheet
