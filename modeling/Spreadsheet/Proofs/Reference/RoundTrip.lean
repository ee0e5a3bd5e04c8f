import Spreadsheet.Proofs.Reference.Parts
import Spreadsheet.Proofs.Text.Trim
import Spreadsheet.Reference.LineEdit
import Spreadsheet.Reference.Offset

/-!
# Written references read back

A reference on the grid is read back from its written form, whatever stands behind it in a text.
Reading, moving and adjusting never lead off the grid, so what they result in can always be
written and read again.
-/

namespace Spreadsheet

namespace Column

theorem isAlpha_letter {n : Nat} (h : n < 26) : (letter n).isAlpha := by
  revert n
  decide

theorem digit_letter {n : Nat} (h : n < 26) : digit (letter n) = n + 1 := by
  revert n
  decide

theorem isAlpha_of_mem_numeral {n : Nat} : ∀ c ∈ numeral n, c.isAlpha := by
  induction n using numeral.induct with
  | case1 => simp [numeral]
  | case2 n ih =>
      intro c hc
      rw [numeral, List.mem_append, List.mem_singleton] at hc
      rcases hc with hc | rfl
      · exact ih c hc
      · exact isAlpha_letter (Nat.mod_lt n (by decide))

theorem letters_ne_nil (col : Nat) : letters col ≠ [] := by
  simp [letters, numeral]

/-- Reading the digits of a numeral that the grid can hold gives the number. -/
theorem read_numeral {n : Nat} (whole cs : List Char) (h : n ≤ maxCols) :
    read whole 0 (numeral n ++ cs) = read whole n cs := by
  induction n using numeral.induct generalizing cs with
  | case1 => simp [numeral]
  | case2 n ih =>
      have bound : n % 26 < 26 := Nat.mod_lt n (by decide)
      have value : n / 26 * 26 + digit (letter (n % 26)) = n + 1 := by
        rw [digit_letter bound]
        omega
      rw [numeral, List.append_assoc, ih _ (by omega), List.singleton_append, read,
        if_pos (isAlpha_letter bound)]
      simp only [value, h, if_true]

theorem ofLetters_letters {col : Nat} (h : col < maxCols) : ofLetters (letters col) = .ok col := by
  have nonempty : (letters col).isEmpty = false := by simp [letters_ne_nil]
  have value : read (letters col) 0 (letters col) = .ok (col + 1) := by
    have value := read_numeral (letters col) [] (Nat.succ_le_of_lt h)
    rwa [List.append_nil] at value
  rw [ofLetters, nonempty, value]
  rfl

theorem read_le_maxCols {whole cs : List Char} {sum n : Nat} (start : sum ≤ maxCols)
    (h : read whole sum cs = .ok n) : n ≤ maxCols := by
  induction cs generalizing sum with
  | nil =>
      cases h
      exact start
  | cons c cs ih =>
      rw [read] at h
      dsimp only at h
      split at h
      · split at h
        · next bound => exact ih bound h
        · cases h
      · cases h

theorem ofLetters_lt {cs : List Char} {col : Nat} (h : ofLetters cs = .ok col) :
    col < maxCols := by
  unfold ofLetters at h
  split at h
  · cases h
  · cases hn : read cs 0 cs with
    | error fault =>
        rw [hn] at h
        cases h
    | ok n =>
        rw [hn] at h
        cases h
        have bound : n ≤ maxCols := read_le_maxCols (Nat.zero_le _) hn
        have positive : 0 < maxCols := by decide
        show n - 1 < maxCols
        omega

end Column

namespace Reference

variable {r : Reference} {rest : List Char}

/-- Whether a reference points at a place of the grid. -/
structure InGrid (r : Reference) : Prop where
  row : r.address.row < maxRows
  col : r.address.col < maxCols

theorem InGrid.along_lt (h : r.InGrid) (axis : Axis) : r.along axis < axis.limit := by
  cases axis with
  | row => exact h.row
  | col => exact h.col

theorem numbered_spelling (r : Reference) : r.spelling.Numbered where
  letters := Column.isAlpha_of_mem_numeral
  digits _ := Nat.isDigit_of_mem_toDigits (by decide) (by decide)
  digits_ne_nil := Nat.toDigits_ne_nil
  colFixed_of_no_letters none := absurd none (Column.letters_ne_nil r.address.col)

/-- A written reference is split into its parts, whatever follows it. -/
theorem split_chars (boundary : ∀ c ∈ rest.head?, ¬ c.isDigit) :
    Spelling.split (r.chars ++ rest) = (r.spelling, rest) :=
  r.numbered_spelling.split_append boundary

theorem readRow_toDigits {row : Nat} (whole : List Char) (h : row < maxRows) :
    readRow whole (Nat.toDigits 10 (row + 1)) = .ok row := by
  have nonempty : (Nat.toDigits 10 (row + 1)).isEmpty = false := by simp [Nat.toDigits_ne_nil]
  have digits : (Nat.toDigits 10 (row + 1)).all Char.isDigit = true := by
    rw [List.all_eq_true]
    exact fun c hc => Nat.isDigit_of_mem_toDigits (by decide) (by decide) hc
  have small : ¬ maxRowNumber ≤ row := by
    have : maxRows ≤ maxRowNumber := by decide
    omega
  simp only [readRow, nonempty, digits, Nat.ofDigitChars_ten_toDigits]
  simp [small, Nat.not_le.mpr h]

/-- A reference on the grid is read back from its written form. -/
theorem ofChars_chars (h : r.InGrid) : ofChars r.chars = .ok r := by
  have numbered := r.numbered_spelling
  have noBlank : ∀ c ∈ r.chars, ¬ Text.isBlank c :=
    fun _ h => (Spelling.of_mem_chars numbered.letters numbered.digits h).1
  have split : Spelling.split (r.chars ++ []) = (r.spelling, []) := split_chars (by simp)
  rw [List.append_nil] at split
  have nonempty : r.chars.isEmpty = false := by
    cases empty : r.chars with
    | nil =>
        have letters := congrArg (fun p => p.1.letters) (empty ▸ split)
        exact absurd letters.symm (Column.letters_ne_nil r.address.col)
    | cons c cs => rfl
  have letters : r.spelling.letters.isEmpty = false := by
    simp [spelling, Column.letters_ne_nil]
  rw [ofChars, Text.trim_eq_self noBlank, readTrimmed, nonempty]
  simp only [split, letters, List.append_nil]
  simp [spelling, Column.ofLetters_letters h.col, readRow_toDigits _ h.row]

/-! ### Staying on the grid -/

theorem readRow_lt {whole cs : List Char} {row : Nat} (h : readRow whole cs = .ok row) :
    row < maxRows := by
  unfold readRow at h
  dsimp only at h
  split at h
  · cases h
  split at h
  · cases h
  split at h
  · cases h
  split at h
  · cases h
  split at h
  · cases h
  · next bound =>
      cases h
      omega

/-- A row is read from digits, of which there is at least one. -/
theorem digits_of_readRow {whole cs : List Char} {row : Nat} (h : readRow whole cs = .ok row) :
    cs ≠ [] ∧ ∀ c ∈ cs, c.isDigit := by
  unfold readRow at h
  dsimp only at h
  split at h
  · cases h
  next nonempty =>
  split at h
  · cases h
  next digits =>
  exact ⟨by simpa using nonempty, by simpa using digits⟩

/-- The parts that a reference is read from. -/
theorem readTrimmed_eq_ok {cs : List Char} (h : readTrimmed cs = .ok r) :
    (Spelling.split cs).1.letters ≠ [] ∧
      Column.ofLetters (Spelling.split cs).1.letters = .ok r.address.col ∧
      readRow cs ((Spelling.split cs).1.digits ++ (Spelling.split cs).2) = .ok r.address.row ∧
      r.colFixed = (Spelling.split cs).1.colFixed ∧
      r.rowFixed = (Spelling.split cs).1.rowFixed := by
  unfold readTrimmed at h
  dsimp only at h
  split at h
  · cases h
  split at h
  · cases h
  next letters =>
  split at h
  · cases h
  next col hcol =>
  split at h
  · cases h
  next row hrow =>
  cases h
  exact ⟨by simpa using letters, hcol, hrow, rfl, rfl⟩

theorem inGrid_of_ofChars {cs : List Char} (h : ofChars cs = .ok r) : r.InGrid := by
  obtain ⟨-, col, row, -⟩ := readTrimmed_eq_ok h
  exact ⟨readRow_lt row, Column.ofLetters_lt col⟩

theorem offsetIndex_lt {limit index moved : Nat} {fixed : Bool} {delta : Int}
    (start : index < limit) (h : offsetIndex limit index fixed delta = some moved) :
    moved < limit := by
  unfold offsetIndex at h
  split at h
  · cases h
    exact start
  · dsimp only at h
    split at h
    · next bounds =>
        cases h
        omega
    · cases h

/-- A moved reference: both indices have moved, and the dollar signs are those it had. -/
theorem offset_eq_some {cols rows : Int} {moved : Reference} : r.offset cols rows = some moved ↔
    (offsetIndex maxRows r.address.row r.rowFixed rows = some moved.address.row ∧
      offsetIndex maxCols r.address.col r.colFixed cols = some moved.address.col) ∧
    r.colFixed = moved.colFixed ∧ r.rowFixed = moved.rowFixed := by
  obtain ⟨⟨row', col'⟩, colFixed, rowFixed⟩ := moved
  unfold Reference.offset
  split
  · next col row hcol hrow =>
      rw [hcol, hrow]
      simp only [Option.some.injEq, Reference.mk.injEq, Address.mk.injEq]
  · next lost =>
      exact ⟨nofun, fun ⟨⟨row, col⟩, _⟩ => (lost _ _ col row).elim⟩

theorem InGrid.offset (h : r.InGrid) {cols rows : Int} {moved : Reference}
    (hmoved : r.offset cols rows = some moved) : moved.InGrid := by
  obtain ⟨⟨row, col⟩, -⟩ := offset_eq_some.mp hmoved
  exact ⟨offsetIndex_lt h.row row, offsetIndex_lt h.col col⟩

theorem adjustIndex_lt {limit line index moved : Nat} {change : LineChange} {edge : Edge}
    (start : index < limit)
    (h : LineEdit.adjustIndex limit change line edge index = some moved) : moved < limit := by
  unfold LineEdit.adjustIndex at h
  cases change with
  | insert =>
      dsimp only at h
      split at h
      · cases h
        exact start
      split at h
      · next bound =>
          cases h
          exact bound
      · cases h
  | delete =>
      dsimp only at h
      split at h
      · cases h
        exact start
      split at h
      · cases h
        omega
      cases edge with
      | lone => cases h
      | near =>
          cases h
          exact start
      | far =>
          dsimp only at h
          split at h
          · cases h
          · cases h
            omega

theorem adjustAlong_lt {e : LineEdit} {axis : Axis} {edge : Edge} {moved : Nat}
    (start : r.along axis < axis.limit) (h : e.adjustAlong axis edge r = some moved) :
    moved < axis.limit := by
  unfold LineEdit.adjustAlong at h
  split at h
  · cases h
    exact start
  · exact adjustIndex_lt start h

theorem InGrid.adjustEnd (h : r.InGrid) {e : LineEdit} {colEdge rowEdge : Edge}
    {moved : Reference} (hmoved : r.adjustEnd e colEdge rowEdge = some moved) : moved.InGrid := by
  unfold Reference.adjustEnd at hmoved
  split at hmoved
  · next col row hcol hrow =>
      cases hmoved
      exact ⟨adjustAlong_lt (h.along_lt .row) hrow, adjustAlong_lt (h.along_lt .col) hcol⟩
  · cases hmoved

theorem InGrid.adjustRange {first second newFirst newSecond : Reference} (h : first.InGrid)
    (h' : second.InGrid) {e : LineEdit}
    (moved : Reference.adjustRange first second e = some (newFirst, newSecond)) :
    newFirst.InGrid ∧ newSecond.InGrid := by
  unfold Reference.adjustRange at moved
  dsimp only at moved
  split at moved
  · next hfirst hsecond =>
      split at moved
      · cases moved
      · cases moved
        exact ⟨h.adjustEnd hfirst, h'.adjustEnd hsecond⟩
  · cases moved

end Reference

end Spreadsheet
