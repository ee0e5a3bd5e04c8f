import Spreadsheet.Proofs.Text.Classes
import Spreadsheet.Reference.Spelling

/-!
# Splitting what has been put together

Putting the four parts of a spelling together and splitting the text again gives the same parts
if each of them ends where the next one begins. What a split results in has this property; so
have parts with digits at their end, whatever follows, as long as it is not another digit. A lone
dollar sign in front of digits is taken for that of the column, so parts without letters need one
there.
-/

namespace Spreadsheet.Spelling

variable {s : Spelling} {cs rest : List Char}

/-- Whether each part of a spelling ends where the next one begins, and the last one where `rest`
begins. -/
structure EndsBefore (s : Spelling) (rest : List Char) : Prop where
  letters : ∀ c ∈ s.letters, c.isAlpha
  digits : ∀ c ∈ s.digits, c.isDigit
  column : s.colFixed = false →
    (s.letters ++ (marker s.rowFixed ++ (s.digits ++ rest))).head? ≠ some '$'
  row : ∀ c ∈ (marker s.rowFixed ++ (s.digits ++ rest)).head?, ¬ c.isAlpha
  number : s.rowFixed = false → (s.digits ++ rest).head? ≠ some '$'
  boundary : ∀ c ∈ rest.head?, ¬ c.isDigit

theorem takeMarker_append (fixed : Bool) (h : fixed = false → cs.head? ≠ some '$') :
    takeMarker (marker fixed ++ cs) = (fixed, cs) := by
  cases fixed with
  | true => rfl
  | false =>
      show takeMarker cs = (false, cs)
      unfold takeMarker
      split
      · exact absurd rfl (h rfl)
      · rfl

theorem takeMarker_of_ne {c : Char} (h : c ≠ '$') : takeMarker (c :: cs) = (false, c :: cs) :=
  takeMarker_append false fun _ same => h (Option.some.inj same)

theorem head_takeMarker (h : (takeMarker cs).1 = false) :
    (takeMarker cs).2.head? ≠ some '$' := by
  unfold takeMarker at h ⊢
  split at h
  · cases h
  · next marked =>
      cases cs with
      | nil => simp
      | cons c cs =>
          intro same
          have first : c = '$' := by simpa using same
          exact marked cs (by rw [first])

/-- Splitting gives back the parts, and leaves what follows them. -/
theorem EndsBefore.split_append (h : s.EndsBefore rest) :
    split (s.chars ++ rest) = (s, rest) := by
  have column : takeMarker (s.chars ++ rest) =
      (s.colFixed, s.letters ++ (marker s.rowFixed ++ (s.digits ++ rest))) := by
    simp only [chars, List.append_assoc]
    exact takeMarker_append _ h.column
  have row : takeMarker (marker s.rowFixed ++ (s.digits ++ rest)) =
      (s.rowFixed, s.digits ++ rest) := takeMarker_append _ h.number
  obtain ⟨letters, numbered⟩ := Text.span_append h.letters h.row
  obtain ⟨digits, left⟩ := Text.span_append h.digits h.boundary
  simp only [split, column, letters, numbered, row, digits, left]

/-- The parts that a text is split into end where the next ones begin. -/
theorem endsBefore_split (cs : List Char) : (split cs).1.EndsBefore (split cs).2 := by
  have named := List.takeWhile_append_dropWhile (p := Char.isAlpha) (l := (takeMarker cs).2)
  have marked := marker_append_takeMarker ((takeMarker cs).2.dropWhile Char.isAlpha)
  have numbered := List.takeWhile_append_dropWhile (p := Char.isDigit)
    (l := (takeMarker ((takeMarker cs).2.dropWhile Char.isAlpha)).2)
  refine ⟨?_, ?_, ?_, ?_, ?_, ?_⟩
  · exact fun c hc => List.all_eq_true.mp List.all_takeWhile c hc
  · exact fun c hc => List.all_eq_true.mp List.all_takeWhile c hc
  · intro relative
    simp only [split, numbered, marked, named]
    exact head_takeMarker relative
  · intro c hc
    simp only [split, numbered, marked] at hc
    have stop := List.head?_dropWhile_not Char.isAlpha (takeMarker cs).2
    rw [hc] at stop
    simpa using stop
  · intro relative
    simp only [split, numbered]
    exact head_takeMarker relative
  · intro c hc
    have stop := List.head?_dropWhile_not Char.isDigit
      (takeMarker ((takeMarker cs).2.dropWhile Char.isAlpha)).2
    simp only [split] at hc
    rw [hc] at stop
    simpa using stop

/-- The parts of a text that begins with a letter or a dollar sign begin in the same way. -/
theorem colFixed_split {c : Char} (begins : c.isAlpha || c == '$') (cs : List Char) :
    (split (c :: cs)).1.letters = [] → (split (c :: cs)).1.colFixed = true := by
  intro none
  by_cases marked : c = '$'
  · rw [marked]
    rfl
  · have alpha : c.isAlpha := by simpa [marked] using begins
    have first : (takeMarker (c :: cs)).2 = c :: cs := by
      unfold takeMarker
      split
      · next same => exact absurd (List.cons.inj same).1 marked
      · rfl
    have letters : (takeMarker (c :: cs)).2.takeWhile Char.isAlpha = [] := none
    rw [first, List.takeWhile_cons_of_pos alpha] at letters
    cases letters

/-! ### Parts with digits at their end -/

/-- Parts that a split can result in, with digits at their end. -/
structure Numbered (s : Spelling) : Prop where
  letters : ∀ c ∈ s.letters, c.isAlpha
  digits : ∀ c ∈ s.digits, c.isDigit
  digits_ne_nil : s.digits ≠ []
  colFixed_of_no_letters : s.letters = [] → s.colFixed

/-- The first digit behind the marker of the row. -/
theorem Numbered.head_digits (h : s.Numbered) (rest : List Char) :
    ∃ d, (s.digits ++ rest).head? = some d ∧ d.isDigit := by
  obtain ⟨d, ds, split⟩ := List.exists_cons_of_ne_nil h.digits_ne_nil
  exact ⟨d, by rw [split]; rfl, h.digits d (by simp [split])⟩

theorem Numbered.endsBefore (h : s.Numbered) (boundary : ∀ c ∈ rest.head?, ¬ c.isDigit) :
    s.EndsBefore rest := by
  obtain ⟨d, head, digit⟩ := h.head_digits rest
  have unmarked : (s.digits ++ rest).head? ≠ some '$' := by
    rw [head]
    rintro same
    cases same
    exact absurd digit (by decide)
  refine ⟨h.letters, h.digits, ?_, ?_, fun _ => unmarked, boundary⟩
  · intro relative
    cases letters : s.letters with
    | nil =>
        have fixed := h.colFixed_of_no_letters letters
        rw [relative] at fixed
        cases fixed
    | cons c letters' =>
        intro same
        have alpha := h.letters c (by simp [letters])
        cases same
        exact absurd alpha (by decide)
  · intro c hc
    cases fixed : s.rowFixed with
    | true =>
        rw [fixed] at hc
        cases hc
        decide
    | false =>
        rw [fixed] at hc
        have same : some d = some c := head.symm.trans hc
        cases same
        intro alpha
        exact Text.not_isDigit_of_isAlpha alpha digit

/-- Splitting gives back parts with digits at their end. -/
theorem Numbered.split_append (h : s.Numbered) (boundary : ∀ c ∈ rest.head?, ¬ c.isDigit) :
    split (s.chars ++ rest) = (s, rest) :=
  (h.endsBefore boundary).split_append

/-! ### Characters of a spelling -/

theorem mem_chars {c : Char} (h : c ∈ s.chars) : c = '$' ∨ c ∈ s.letters ∨ c ∈ s.digits := by
  have marked (fixed : Bool) (h : c ∈ marker fixed) : c = '$' := by
    cases fixed with
    | true => exact List.mem_singleton.mp h
    | false => cases h
  simp only [chars, List.mem_append] at h
  rcases h with h | h | h | h
  · exact .inl (marked _ h)
  · exact .inr (.inl h)
  · exact .inl (marked _ h)
  · exact .inr (.inr h)

/-- No character of a spelling is a blank or a quote. -/
theorem of_mem_chars {c : Char} (letters : ∀ c ∈ s.letters, c.isAlpha)
    (digits : ∀ c ∈ s.digits, c.isDigit) (h : c ∈ s.chars) : ¬ Text.isBlank c ∧ c ≠ '"' := by
  rcases mem_chars h with rfl | h | h
  · decide
  · refine ⟨Text.not_isBlank_of_isAlpha (letters c h), ?_⟩
    rintro rfl
    exact absurd (letters _ h) (by decide)
  · refine ⟨Text.not_isBlank_of_isDigit (digits c h), ?_⟩
    rintro rfl
    exact absurd (digits _ h) (by decide)

end Spreadsheet.Spelling
