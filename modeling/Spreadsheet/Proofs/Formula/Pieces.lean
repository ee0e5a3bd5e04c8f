import Spreadsheet.Formula.Redirection
import Spreadsheet.Proofs.Reference.RoundTrip

/-!
# The pieces of a text, from the front

What the pieces of a text are is settled from left to right: the lemmas below name what can stand
in front of a text and say that the pieces of the whole are those of the front, followed by those
of the rest. Digits, signs and blanks always stand for themselves, letters do if neither another
letter nor a dollar sign nor a digit comes next.
-/

namespace Spreadsheet

namespace Piece

variable {c : Char} {cs rest : List Char} {s : Spelling}

/-- Whether a piece is a blank. -/
def isBlank : Piece → Bool
  | other c => Text.isBlank c
  | _ => false

/-- Whether a piece is neither a reference nor a pair nor a colon nor a blank. -/
def isPlain : Piece → Bool
  | quoted _ => true
  | other c => c != ':' && !Text.isBlank c
  | _ => false

theorem reference?_eq_none (h : (Spelling.split cs).1.isComplete = false) :
    reference? cs = none := by
  simp [reference?, h]

/-- A reference has its form whatever follows, as long as its number ends there. -/
theorem reference?_chars (h : s.Numbered) (letters : s.letters ≠ [])
    (boundary : ∀ c ∈ rest.head?, ¬ c.isDigit) :
    reference? (s.chars ++ rest) = some (s.chars, rest) := by
  have complete : s.isComplete := by simp [Spelling.isComplete, letters, h.digits_ne_nil]
  simp [reference?, h.split_append boundary, complete]

/-- What has the form of a reference has letters and digits, and ends behind them. -/
theorem exists_of_reference? {written : List Char} (h : reference? cs = some (written, rest)) :
    ∃ s : Spelling, s.Numbered ∧ s.letters ≠ [] ∧ written = s.chars ∧ cs = s.chars ++ rest ∧
      ∀ c ∈ rest.head?, ¬ c.isDigit := by
  have parts := Spelling.endsBefore_split cs
  have whole := Spelling.chars_append_split cs
  unfold reference? at h
  split at h
  next s behind split =>
  rw [split] at parts whole
  split at h
  · next complete =>
      cases h
      obtain ⟨letters, digits⟩ : s.letters ≠ [] ∧ s.digits ≠ [] := by
        simpa [Spelling.isComplete] using complete
      have numbered : s.Numbered :=
        ⟨parts.letters, parts.digits, digits, fun none => absurd none letters⟩
      exact ⟨s, numbered, letters, rfl, whole.symm, parts.boundary⟩
  · cases h

/-- Only a letter or a dollar sign begins a reference. -/
theorem reference?_eq_none_of_start (h : (c.isAlpha || c == '$') = false) :
    reference? (c :: cs) = none := by
  obtain ⟨letter, marker⟩ : c.isAlpha = false ∧ c ≠ '$' := by simpa using h
  apply reference?_eq_none
  simp [Spelling.isComplete, Spelling.split, Spelling.takeMarker_of_ne marker, letter]

/-- Behind the dollar sign of a column there has to be a letter. -/
theorem reference?_marker_eq_none (h : ∀ c ∈ cs.head?, ¬ c.isAlpha) :
    reference? ('$' :: cs) = none := by
  have empty : cs.takeWhile Char.isAlpha = [] := by
    cases cs with
    | nil => rfl
    | cons c cs => simp [h c rfl]
  apply reference?_eq_none
  simp [Spelling.isComplete, Spelling.split, Spelling.takeMarker, empty]

/-- Behind letters there has to be a digit, if there is nothing else that belongs to them. -/
theorem reference?_letters_eq_none (letters : ∀ c ∈ cs, c.isAlpha)
    (alpha : ∀ c ∈ rest.head?, ¬ c.isAlpha) (marker : rest.head? ≠ some '$')
    (digit : ∀ c ∈ rest.head?, ¬ c.isDigit) : reference? (cs ++ rest) = none := by
  have parts : (⟨false, cs, false, []⟩ : Spelling).EndsBefore rest :=
    { letters := letters
      digits := by simp
      column := fun _ => by
        cases cs with
        | nil => exact marker
        | cons c cs =>
            intro same
            have alpha := letters c List.mem_cons_self
            cases same
            exact absurd alpha (by decide)
      row := alpha
      number := fun _ => marker
      boundary := digit }
  have split : Spelling.split (cs ++ rest) = (⟨false, cs, false, []⟩, rest) := by
    simpa [Spelling.chars, Spelling.marker] using parts.split_append
  apply reference?_eq_none
  simp [split, Spelling.isComplete]

end Piece

namespace Formula

open Piece

variable {c : Char} {cs rest : List Char} {s : Spelling}

theorem pieces_nil : pieces [] = [] := by
  rw [pieces]

theorem pieces_cons (c : Char) (cs : List Char) :
    pieces (c :: cs) = (Piece.next c cs).1 :: pieces (Piece.next c cs).2 := by
  rw [pieces]

/-- The pieces of a text are all of it. -/
theorem flatMap_chars_pieces (cs : List Char) : (pieces cs).flatMap Piece.chars = cs := by
  induction cs using pieces.induct with
  | case1 => simp [pieces_nil]
  | case2 c cs ih => rw [pieces_cons, List.flatMap_cons, ih, Piece.next_chars]

theorem pieces_other (quote : c ≠ '"') (h : reference? (c :: cs) = none) :
    pieces (c :: cs) = other c :: pieces cs := by
  rw [pieces_cons, Piece.next, if_neg quote, h]

/-- A character that begins nothing stands for itself. -/
theorem pieces_sign (quote : c ≠ '"') (h : (c.isAlpha || c == '$') = false) :
    pieces (c :: cs) = other c :: pieces cs :=
  pieces_other quote (reference?_eq_none_of_start h)

theorem pieces_signs
    (h : ∀ c ∈ cs, c ≠ '"' ∧ (c.isAlpha || c == '$') = false) :
    pieces (cs ++ rest) = cs.map other ++ pieces rest := by
  induction cs with
  | nil => rfl
  | cons c cs ih =>
      obtain ⟨quote, sign⟩ := h c List.mem_cons_self
      rw [List.cons_append, pieces_sign quote sign, ih fun d hd => h d (List.mem_cons_of_mem c hd)]
      rfl

theorem ne_quote_of_isAlpha (h : c.isAlpha) : c ≠ '"' := by
  rintro rfl
  exact absurd h (by decide)

/-- Letters that are no part of a reference stand for themselves. -/
theorem pieces_letters (letters : ∀ c ∈ cs, c.isAlpha) (alpha : ∀ c ∈ rest.head?, ¬ c.isAlpha)
    (marker : rest.head? ≠ some '$') (digit : ∀ c ∈ rest.head?, ¬ c.isDigit) :
    pieces (cs ++ rest) = cs.map other ++ pieces rest := by
  induction cs with
  | nil => rfl
  | cons c cs ih =>
      have none : reference? (c :: (cs ++ rest)) = none :=
        reference?_letters_eq_none letters alpha marker digit
      have quote : c ≠ '"' := ne_quote_of_isAlpha (letters c List.mem_cons_self)
      rw [List.cons_append, pieces_other quote none,
        ih fun d hd => letters d (List.mem_cons_of_mem c hd)]
      rfl

/-- A text between quotes is one piece. -/
theorem pieces_quoted {inner : List Char} (h : '"' ∉ inner) :
    pieces ('"' :: (inner ++ '"' :: rest)) = quoted inner :: pieces rest := by
  have inside : ∀ c ∈ inner, (c != '"') = true := by
    intro c hc
    simp only [bne_iff_ne]
    rintro rfl
    exact h hc
  obtain ⟨front, behind⟩ := Text.span_append inside (show ∀ c ∈ ('"' :: rest).head?, _ by simp)
  rw [pieces_cons, Piece.next, if_pos rfl, front, behind]

/-- A reference is a piece, or the first half of one. -/
theorem pieces_reference (h : s.Numbered) (letters : s.letters ≠ [])
    (boundary : ∀ c ∈ rest.head?, ¬ c.isDigit) :
    pieces (s.chars ++ rest) =
      (fromReference s.chars rest).1 :: pieces (fromReference s.chars rest).2 := by
  have form := reference?_chars h letters boundary
  obtain ⟨c, cs, split⟩ := List.exists_cons_of_ne_nil (reference?_nonempty form)
  have quote : c ≠ '"' := (Spelling.of_mem_chars h.letters h.digits (by simp [split])).2
  rw [split] at form ⊢
  rw [List.cons_append] at form ⊢
  rw [pieces_cons, Piece.next, if_neg quote, form]

theorem pieces_lone (h : s.Numbered) (letters : s.letters ≠ [])
    (boundary : ∀ c ∈ rest.head?, ¬ c.isDigit)
    (alone : ∀ behind, rest = ':' :: behind → reference? behind = none) :
    pieces (s.chars ++ rest) = lone s.chars :: pieces rest := by
  have front : fromReference s.chars rest = (lone s.chars, rest) := by
    unfold fromReference
    split
    · next behind =>
        rw [alone behind rfl]
    · rfl
  rw [pieces_reference h letters boundary, front]

theorem pieces_pair {s' : Spelling} (h : s.Numbered) (letters : s.letters ≠ []) (h' : s'.Numbered)
    (letters' : s'.letters ≠ []) (boundary : ∀ c ∈ rest.head?, ¬ c.isDigit) :
    pieces (s.chars ++ ':' :: (s'.chars ++ rest)) = pair s.chars s'.chars :: pieces rest := by
  rw [pieces_reference h letters (by simp), fromReference, reference?_chars h' letters' boundary]

/-- A dollar sign without a letter behind it stands for itself. -/
theorem pieces_marker (h : ∀ c ∈ rest.head?, ¬ c.isAlpha) :
    pieces ('$' :: rest) = other '$' :: pieces rest :=
  pieces_other (by decide) (reference?_marker_eq_none h)

theorem sign_of_isDigit (h : c.isDigit) : c ≠ '"' ∧ (c.isAlpha || c == '$') = false := by
  refine ⟨?_, ?_⟩
  · rintro rfl
    exact absurd h (by decide)
  · rw [Bool.or_eq_false_iff, beq_eq_false_iff_ne]
    refine ⟨?_, ?_⟩
    · cases alpha : c.isAlpha with
      | false => rfl
      | true => exact absurd h (Text.not_isDigit_of_isAlpha alpha)
    · rintro rfl
      exact absurd h (by decide)

/-- Digits behind dollar signs only are no reference. -/
theorem pieces_letterless (h : s.Numbered) (letters : s.letters = [])
    (boundary : ∀ c ∈ rest.head?, ¬ c.isDigit) :
    pieces (s.chars ++ rest) = s.chars.map other ++ pieces rest := by
  have fixed : s.colFixed = true := h.colFixed_of_no_letters letters
  have stop := (h.endsBefore boundary).row
  have digits : pieces (s.digits ++ rest) = s.digits.map other ++ pieces rest :=
    pieces_signs fun c hc => sign_of_isDigit (h.digits c hc)
  have row : pieces (Spelling.marker s.rowFixed ++ (s.digits ++ rest)) =
      (Spelling.marker s.rowFixed ++ s.digits).map other ++ pieces rest := by
    cases marked : s.rowFixed with
    | false => exact digits
    | true =>
        obtain ⟨d, head, digit⟩ := h.head_digits rest
        have noLetter : ∀ c ∈ (s.digits ++ rest).head?, ¬ c.isAlpha := by
          intro c hc alpha
          rw [head] at hc
          cases hc
          exact Text.not_isDigit_of_isAlpha alpha digit
        show pieces ('$' :: (s.digits ++ rest)) = _
        rw [pieces_marker noLetter, digits]
        rfl
  simp only [Spelling.chars, fixed, letters, List.nil_append, List.append_assoc]
  show pieces ('$' :: (Spelling.marker s.rowFixed ++ (s.digits ++ rest))) = _
  rw [pieces_marker stop, row]
  rfl

end Formula

end Spreadsheet
