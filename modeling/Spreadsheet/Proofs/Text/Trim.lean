import Mathlib.Data.List.TakeWhile
import Spreadsheet.Proofs.Text.Classes

/-!
# Trimming

A text is its trimmed form with blanks around it.
-/

namespace Spreadsheet.Text

variable {cs : List Char}

theorem all_takeWhile_isBlank : ∀ c ∈ cs.takeWhile isBlank, isBlank c :=
  fun c hc => List.all_eq_true.mp List.all_takeWhile c hc

/-- The blanks in front of a text, and the text without them. -/
theorem exists_trimStart (cs : List Char) :
    ∃ front, cs = front ++ trimStart cs ∧ ∀ c ∈ front, isBlank c :=
  ⟨cs.takeWhile isBlank, List.takeWhile_append_dropWhile.symm, all_takeWhile_isBlank⟩

/-- The text without the blanks behind it, and these. -/
theorem exists_trimEnd (cs : List Char) :
    ∃ back, cs = trimEnd cs ++ back ∧ ∀ c ∈ back, isBlank c := by
  refine ⟨(cs.reverse.takeWhile isBlank).reverse, ?_, ?_⟩
  · rw [trimEnd, ← List.reverse_append, List.takeWhile_append_dropWhile, List.reverse_reverse]
  · exact fun c hc => all_takeWhile_isBlank c (List.mem_reverse.mp hc)

theorem head?_trimStart (cs : List Char) : ∀ c ∈ (trimStart cs).head?, ¬ isBlank c := by
  intro c hc
  have stop := List.head?_dropWhile_not isBlank cs
  rw [trimStart] at hc
  rw [hc] at stop
  simpa using stop

theorem trimStart_append {front : List Char} (blanks : ∀ c ∈ front, isBlank c)
    (head : ∀ c ∈ cs.head?, ¬ isBlank c) : trimStart (front ++ cs) = cs :=
  (span_append blanks head).2

/-- Text without any blank is not changed by trimming it. -/
theorem trim_eq_self (h : ∀ c ∈ cs, ¬ isBlank c) : trim cs = cs := by
  have start : trimStart cs = cs :=
    trimStart_append (by simp : ∀ c ∈ [], isBlank c) fun c hc => h c (List.mem_of_mem_head? hc)
  have stop : trimStart cs.reverse = cs.reverse :=
    trimStart_append (by simp : ∀ c ∈ [], isBlank c) fun c hc =>
      h c (List.mem_reverse.mp (List.mem_of_mem_head? hc))
  rw [trim, start]
  show (trimStart cs.reverse).reverse = cs
  rw [stop, List.reverse_reverse]

/-! ### Blanks that make no difference -/

/-- What is dropped from the front ends at the latest at a character that is kept. -/
theorem dropWhile_append_cons {p : Char → Bool} {a b : List Char} {c : Char} (h : p c = false) :
    (a ++ c :: b).dropWhile p = a.dropWhile p ++ c :: b := by
  induction a with
  | nil => simp [h]
  | cons d a ih =>
      rw [List.cons_append, List.dropWhile_cons, List.dropWhile_cons, ih]
      split <;> rfl

theorem trimStart_append_cons {a b : List Char} {c : Char} (h : isBlank c = false) :
    trimStart (a ++ c :: b) = trimStart a ++ c :: b :=
  dropWhile_append_cons h

theorem trimEnd_append_cons {a b : List Char} {c : Char} (h : isBlank c = false) :
    trimEnd (a ++ c :: b) = a ++ c :: trimEnd b := by
  rw [trimEnd, List.reverse_append, List.reverse_cons, List.append_assoc, List.singleton_append,
    dropWhile_append_cons h]
  simp [trimEnd]

/-- Trimming a text with a mark in it trims what stands in front of the mark and behind it. -/
theorem trim_append_cons {a b : List Char} {c : Char} (h : isBlank c = false) :
    trim (a ++ c :: b) = trimStart a ++ c :: trimEnd b := by
  rw [trim, trimStart_append_cons h, trimEnd_append_cons h]

theorem trimStart_trimStart (cs : List Char) : trimStart (trimStart cs) = trimStart cs :=
  trimStart_append (by simp : ∀ c ∈ [], isBlank c) (head?_trimStart cs)

theorem trimEnd_trimEnd (cs : List Char) : trimEnd (trimEnd cs) = trimEnd cs := by
  have twice := trimStart_trimStart cs.reverse
  unfold trimStart at twice
  rw [trimEnd, trimEnd, List.reverse_reverse, twice]

theorem trim_trimStart (cs : List Char) : trim (trimStart cs) = trim cs := by
  rw [trim, trimStart_trimStart, trim]

theorem trim_trimEnd (cs : List Char) : trim (trimEnd cs) = trim cs := by
  by_cases blanks : ∀ c ∈ cs, isBlank c
  · have front : trimStart cs = [] := List.dropWhile_eq_nil_iff.mpr blanks
    have back : trimEnd cs = [] := by
      rw [trimEnd, List.dropWhile_eq_nil_iff.mpr fun c hc => blanks c (List.mem_reverse.mp hc),
        List.reverse_nil]
    rw [back, trim, trim, front, trimStart_nil]
  · simp only [not_forall, Bool.not_eq_true] at blanks
    obtain ⟨c, hc, stays⟩ := blanks
    obtain ⟨a, b, rfl⟩ := List.append_of_mem hc
    rw [trimEnd_append_cons stays, trim_append_cons stays, trim_append_cons stays, trimEnd_trimEnd]

/-- Blanks behind a text are trimmed with those that it ends in. -/
theorem trim_append_blanks {back : List Char} (blanks : ∀ c ∈ back, isBlank c) :
    trim (cs ++ back) = trim cs := by
  have same : trimEnd (cs ++ back) = trimEnd cs := by
    rw [trimEnd, List.reverse_append, List.dropWhile_append_of_pos, trimEnd]
    exact fun c hc => blanks c (List.mem_reverse.mp hc)
  rw [← trim_trimEnd, same, trim_trimEnd]

end Spreadsheet.Text
