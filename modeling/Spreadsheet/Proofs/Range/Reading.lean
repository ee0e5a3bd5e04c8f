import Spreadsheet.Proofs.Range.Cells
import Spreadsheet.Proofs.Reference.Grammar

/-!
# Which texts are ranges

Two texts with a colon between them are a range exactly if both are addresses, and it is the
rectangle that these span, whichever comes first. The corners of a range, written with a colon
between them, are therefore read back as the range. With what is known of single references this
settles completely how places of the grid are written and read.
-/

namespace Spreadsheet

namespace Reference

variable {r : Reference} {cs : List Char}

theorem ofChars_trimStart (cs : List Char) : ofChars (Text.trimStart cs) = ofChars cs := by
  rw [ofChars, Text.trim_trimStart, ofChars]

theorem ofChars_trimEnd (cs : List Char) : ofChars (Text.trimEnd cs) = ofChars cs := by
  rw [ofChars, Text.trim_trimEnd, ofChars]

theorem ofChars_trim (cs : List Char) : ofChars (Text.trim cs) = ofChars cs := by
  rw [Text.trim, ofChars_trimEnd, ofChars_trimStart]

/-- There is no colon in a reference. -/
theorem colon_not_mem (h : ofChars cs = .ok r) : ':' ∉ cs := by
  intro colon
  obtain ⟨a, b, rfl⟩ := List.append_of_mem colon
  obtain ⟨-, s, text, names⟩ := ofChars_eq_ok_iff.mp h
  rw [Text.trim_append_cons (by decide)] at text
  have inside : ':' ∈ s.chars := by simp [← text]
  rcases Spelling.mem_chars inside with same | letter | digit
  · cases same
  · exact absurd (names.letters _ letter) (by decide)
  · exact absurd (names.digits _ digit) (by decide)

end Reference

namespace Address

variable {a : Address} {cs : List Char}

theorem ofChars_eq_ok_iff : ofChars cs = .ok a ↔ ∃ r, Reference.ofChars cs = .ok r ∧ r.address = a := by
  unfold ofChars
  cases Reference.ofChars cs <;> simp [Except.map]

/-- An address of the grid is read back from its written form. -/
theorem ofText_text (row : a.row < maxRows) (col : a.col < maxCols) : ofText a.text = .ok a := by
  have chars : a.text.toList = (⟨a, false, false⟩ : Reference).chars := String.toList_ofList
  have read : Reference.ofText a.text = .ok ⟨a, false, false⟩ := by
    rw [Reference.ofText, chars, Reference.ofChars_chars ⟨row, col⟩]
  rw [ofText, read]
  rfl

end Address

namespace Range

variable {a b x y : Address} {cs ds : List Char} {r : Range}

theorem spanning_corners (r : Range) : spanning r.first r.last = r := by
  obtain ⟨⟨row, col⟩, ⟨row', col'⟩, rows, cols⟩ := r
  simp_all [spanning]

theorem corner_eq_ok_iff (whole : List Char) :
    corner whole cs = .ok a ↔ Address.ofChars cs = .ok a := by
  unfold corner
  cases Address.ofChars cs <;> simp [Except.mapError]

theorem readTrimmed_of_colon_not_mem (h : ':' ∉ cs) :
    readTrimmed cs = (Address.ofChars cs).map single := by
  have through : cs.dropWhile (· != ':') = [] := by
    rw [List.dropWhile_eq_nil_iff]
    intro c hc
    simp only [bne_iff_ne]
    rintro rfl
    exact h hc
  rw [readTrimmed, through]

/-- The first colon of a text parts the corners. -/
theorem readTrimmed_of_first_colon (h : ':' ∉ cs) : readTrimmed (cs ++ ':' :: ds) = .ok r ↔
    ∃ x y, Address.ofChars cs = .ok x ∧ Address.ofChars ds = .ok y ∧ r = spanning x y := by
  have inside : ∀ c ∈ cs, (c != ':') = true := by
    intro c hc
    simp only [bne_iff_ne]
    rintro rfl
    exact h hc
  have boundary : ∀ c ∈ (':' :: ds).head?, ¬ (c != ':') = true := by simp
  obtain ⟨front, behind⟩ := Text.span_append inside boundary
  rw [readTrimmed, behind, front]
  dsimp only
  simp only [← corner_eq_ok_iff (cs ++ ':' :: ds)]
  cases corner (cs ++ ':' :: ds) cs with
  | error cause => simp
  | ok x =>
      cases corner (cs ++ ':' :: ds) ds with
      | error cause => simp
      | ok y => simp [eq_comm]

/-- Between two corners there is one colon, and no other one anywhere. -/
theorem readTrimmed_append_cons : readTrimmed (cs ++ ':' :: ds) = .ok r ↔
    ∃ x y, Address.ofChars cs = .ok x ∧ Address.ofChars ds = .ok y ∧ r = spanning x y := by
  by_cases colon : ':' ∈ cs
  · have unreadable {l : List Char} (h : ':' ∈ l) (z : Address) : Address.ofChars l ≠ .ok z := by
      intro found
      obtain ⟨_, read, -⟩ := Address.ofChars_eq_ok_iff.mp found
      exact Reference.colon_not_mem read h
    constructor
    · intro found
      obtain ⟨before, after, rfl, first⟩ := List.eq_append_cons_of_mem colon
      rw [List.append_assoc, List.cons_append, readTrimmed_of_first_colon first] at found
      obtain ⟨x, y, -, second, -⟩ := found
      exact absurd second (unreadable (by simp) y)
    · rintro ⟨x, y, first, -⟩
      exact absurd first (unreadable colon x)
  · exact readTrimmed_of_first_colon colon

/-- Two texts with a colon between them are a range exactly if they are its corners. -/
theorem ofText_joined (a b : String) (r : Range) : ofText (a ++ ":" ++ b) = .ok r ↔
    ∃ x y, Address.ofText a = .ok x ∧ Address.ofText b = .ok y ∧ r = spanning x y := by
  have text : (a ++ ":" ++ b).toList = a.toList ++ ':' :: b.toList := by simp
  have same (l l' : List Char) (h : Reference.ofChars l = Reference.ofChars l') :
      Address.ofChars l = Address.ofChars l' := by
    rw [Address.ofChars, h, Address.ofChars]
  rw [ofText, text, Text.trim_append_cons (by decide), readTrimmed_append_cons,
    same _ _ (Reference.ofChars_trimStart a.toList), same _ _ (Reference.ofChars_trimEnd b.toList)]
  rfl

/-- Which corner comes first does not matter. -/
theorem ofText_joined_comm (a b : String) (r : Range) :
    ofText (a ++ ":" ++ b) = .ok r ↔ ofText (b ++ ":" ++ a) = .ok r := by
  rw [ofText_joined, ofText_joined, exists_comm]
  simp only [spanning_comm, and_left_comm]

/-- An address is a range of one cell. -/
theorem ofText_of_address {text : String} (h : Address.ofText text = .ok a) :
    ofText text = .ok (single a) := by
  have trimmed : Address.ofChars (Text.trim text.toList) = .ok a := by
    rw [Address.ofChars, Reference.ofChars_trim]
    exact h
  obtain ⟨_, read, -⟩ := Address.ofChars_eq_ok_iff.mp trimmed
  rw [ofText, readTrimmed_of_colon_not_mem (Reference.colon_not_mem read), trimmed]
  rfl

/-- A range of the grid is read back from its written form. -/
theorem ofText_text (row : r.last.row < maxRows) (col : r.last.col < maxCols) :
    ofText r.text = .ok r := by
  have rows := r.row_le
  have cols := r.col_le
  have first : Address.ofText r.first.text = .ok r.first :=
    Address.ofText_text (by omega) (by omega)
  have last : Address.ofText r.last.text = .ok r.last := Address.ofText_text row col
  unfold text
  split
  · next one =>
      have same : single r.first = r := by
        rw [← spanning_corners r, ← one]
        simp [single, spanning]
      rw [ofText_of_address first, same]
  · exact (ofText_joined _ _ r).mpr ⟨r.first, r.last, first, last, (spanning_corners r).symm⟩

end Range

/-- Texts and places of the grid correspond exactly. A text is a reference if and only if it spells
one, up to blanks around it; the reference is written as this spelling in its canonical form, and
what is written is read back. Two texts with a colon between them are a range if and only if both
are addresses, in either order, and the written form of a range is read back too. -/
theorem Address.codec_exact :
    (∀ (text : String) (r : Reference), Reference.ofText text = .ok r ↔
      r.InGrid ∧ ∃ s : Spelling, Text.trim text.toList = s.chars ∧ s.Names r) ∧
    (∀ (s : Spelling) (r : Reference), s.Names r → r.text = String.ofList s.canonical.chars) ∧
    (∀ r : Reference, r.InGrid → Reference.ofText r.text = .ok r) ∧
    (∀ r : Range, r.last.row < maxRows → r.last.col < maxCols → Range.ofText r.text = .ok r) ∧
    (∀ (a b : String) (r : Range), Range.ofText (a ++ ":" ++ b) = .ok r ↔
      ∃ x y, Address.ofText a = .ok x ∧ Address.ofText b = .ok y ∧ r = Range.spanning x y) ∧
    ∀ (a b : String) (r : Range),
      Range.ofText (a ++ ":" ++ b) = .ok r ↔ Range.ofText (b ++ ":" ++ a) = .ok r := by
  refine ⟨fun text r => Reference.ofChars_eq_ok_iff, fun s r names => ?_, fun r onGrid => ?_,
    fun r row col => Range.ofText_text row col, Range.ofText_joined, Range.ofText_joined_comm⟩
  · rw [Reference.text, Reference.chars, names.canonical_eq]
  · rw [Reference.ofText, Reference.text, String.toList_ofList, Reference.ofChars_chars onGrid]

/-- A spelling in lower case, with markers and with zeros in front of the row. -/
def Spelling.padded : Spelling :=
  ⟨true, ['a', 'b'], true, ['0', '0', '7']⟩

theorem Spelling.names_padded : Spelling.padded.Names ⟨⟨6, 27⟩, true, true⟩ where
  letters_ne_nil := by decide
  letters := by simp [padded]
  digits_ne_nil := by decide
  digits := by simp [padded]
  col := by decide
  row := by decide
  colFixed := rfl
  rowFixed := rfl

theorem Address.codec_exact_padded :
    Reference.ofText " $ab$007 " = .ok ⟨⟨6, 27⟩, true, true⟩ ∧
    Reference.text ⟨⟨6, 27⟩, true, true⟩ = "$AB$7" ∧
    Reference.ofText "$AB$7" = .ok ⟨⟨6, 27⟩, true, true⟩ ∧
    Range.ofText (" $ab$007 " ++ ":" ++ "A9") = .ok (Range.spanning ⟨6, 27⟩ ⟨8, 0⟩) ∧
    Range.ofText ("A9" ++ ":" ++ " $ab$007 ") = .ok (Range.spanning ⟨6, 27⟩ ⟨8, 0⟩) := by
  obtain ⟨spelled, canonical, back, -, joined, reversed⟩ := codec_exact
  have read : Reference.ofText " $ab$007 " = .ok ⟨⟨6, 27⟩, true, true⟩ :=
    (spelled _ _).mpr ⟨⟨by decide, by decide⟩, Spelling.padded, by decide, Spelling.names_padded⟩
  have written : Reference.text ⟨⟨6, 27⟩, true, true⟩ = "$AB$7" :=
    (canonical Spelling.padded _ Spelling.names_padded).trans (by decide)
  have range : Range.ofText (" $ab$007 " ++ ":" ++ "A9") = .ok (Range.spanning ⟨6, 27⟩ ⟨8, 0⟩) :=
    (joined _ _ _).mpr ⟨⟨6, 27⟩, ⟨8, 0⟩, by rw [ofText, read]; rfl, by decide +kernel, rfl⟩
  refine ⟨read, written, ?_, range, (reversed _ _ _).mp range⟩
  rw [← written]
  exact back _ ⟨by decide, by decide⟩

end Spreadsheet
