import Spreadsheet.Text.Blank

/-!
# Classes of characters

Letters, digits and blanks are intervals of code points that do not meet each other. A text is
cut where a class ends; the lemma on cuts says what is needed of the text behind the cut.
-/

namespace Spreadsheet.Text

theorem isAlpha_iff (c : Char) :
    c.isAlpha ↔ (65 ≤ c.toNat ∧ c.toNat ≤ 90) ∨ (97 ≤ c.toNat ∧ c.toNat ≤ 122) := by
  delta Char.isAlpha Char.isUpper Char.isLower
  simp only [Bool.or_eq_true, Bool.and_eq_true, decide_eq_true_eq, UInt32.le_iff_toNat_le]
  rfl

theorem isDigit_iff (c : Char) : c.isDigit ↔ 48 ≤ c.toNat ∧ c.toNat ≤ 57 := by
  simp only [Char.isDigit, Bool.and_eq_true, decide_eq_true_eq, UInt32.le_iff_toNat_le]
  rfl

theorem isBlank_iff (c : Char) : isBlank c ↔
    (9 ≤ c.toNat ∧ c.toNat ≤ 13) ∨ c.toNat = 32 ∨ 133 ≤ c.toNat ∧ isBlank c := by
  simp only [isBlank, Bool.or_eq_true, Bool.and_eq_true, decide_eq_true_eq, beq_iff_eq]
  omega

variable {c : Char}

theorem not_isDigit_of_isAlpha (h : c.isAlpha) : ¬ c.isDigit := by
  rw [isAlpha_iff] at h
  rw [isDigit_iff]
  omega

theorem not_isBlank_of_isAlpha (h : c.isAlpha) : ¬ isBlank c := by
  rw [isAlpha_iff] at h
  rw [isBlank_iff]
  omega

theorem not_isBlank_of_isDigit (h : c.isDigit) : ¬ isBlank c := by
  rw [isDigit_iff] at h
  rw [isBlank_iff]
  omega

/-- Only letters have upper case letters. -/
theorem isAlpha_of_toUpper (h : c.toUpper.isAlpha) : c.isAlpha := by
  delta Char.toUpper at h
  split at h
  · next lower =>
      rw [UInt32.le_iff_toNat_le, UInt32.le_iff_toNat_le] at lower
      rw [isAlpha_iff]
      exact .inr lower
  · exact h

/-- A class that holds of everything in front of a cut, and not of what follows at once, is cut
off there. -/
theorem span_append {p : Char → Bool} {front rest : List Char} (inside : ∀ c ∈ front, p c)
    (boundary : ∀ c ∈ rest.head?, ¬ p c) :
    (front ++ rest).takeWhile p = front ∧ (front ++ rest).dropWhile p = rest := by
  rw [List.takeWhile_append_of_pos inside, List.dropWhile_append_of_pos inside]
  cases rest with
  | nil => simp
  | cons c rest => simp [boundary c rfl]

end Spreadsheet.Text
