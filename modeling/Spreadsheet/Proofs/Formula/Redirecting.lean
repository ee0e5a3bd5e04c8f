import Spreadsheet.Proofs.Formula.Blanks

/-!
# Redirected texts

Redirecting goes through a text piece by piece and changes nothing but references. The new text
begins like the old one as far as the token in front of it can tell, so what is scanned in front
of a reference stays the same. A reference that is redirected is scanned as a reference again, or
as the token of a lost one.
-/

namespace Spreadsheet

namespace Piece

/-- Whether a piece refers to something. -/
def refers : Piece → Bool
  | lone _ | pair _ _ => true
  | _ => false

theorem refers_of_isPlain {p : Piece} (h : p.isPlain) : p.refers = false := by
  cases p with
  | quoted inner => rfl
  | lone written => cases h
  | pair first second => cases h
  | other c => rfl

/-- Only a letter or a dollar sign begins a piece that refers to something. -/
theorem refers_next {c : Char} (h : (c.isAlpha || c == '$') = false) (cs : List Char) :
    (Piece.next c cs).1.refers = false := by
  unfold Piece.next
  split
  · split <;> rfl
  · rw [reference?_eq_none_of_start h]
    rfl

end Piece

namespace Formula

open Piece

/-- Whether a redirection never leads off the grid. -/
structure Redirection.StaysOnGrid (f : Redirection) : Prop where
  lone : ∀ {r r'}, r.InGrid → f.lone r = some r' → r'.InGrid
  pair : ∀ {a b a' b'}, a.InGrid → b.InGrid → f.pair a b = some (a', b') → a'.InGrid ∧ b'.InGrid

/-- Copying takes each end of a range where it takes a reference that stands alone. -/
theorem copying_pair_eq_some {cols rows : Int} {a b a' b' : Reference} :
    (copying cols rows).pair a b = some (a', b') ↔
      copyReference cols rows a = some a' ∧ copyReference cols rows b = some b' := by
  simp only [copying]
  cases copyReference cols rows a <;> cases copyReference cols rows b <;> simp

theorem staysOnGrid_copying (cols rows : Int) : (copying cols rows).StaysOnGrid := by
  have lone {r r' : Reference} (h : r.InGrid) (moved : copyReference cols rows r = some r') :
      r'.InGrid := by
    unfold copyReference at moved
    split at moved
    · cases moved
      exact h
    · exact h.offset moved
  refine ⟨lone, fun ha hb moved => ?_⟩
  obtain ⟨first, second⟩ := copying_pair_eq_some.mp moved
  exact ⟨lone ha first, lone hb second⟩

theorem staysOnGrid_adjusting (e : LineEdit) : (adjusting e).StaysOnGrid where
  lone h moved := h.adjustEnd moved
  pair ha hb moved := ha.adjustRange hb moved

namespace Redirection

variable {f : Redirection} {c : Char} {cs l rest : List Char} {ps : List Piece}

theorem chars_nil (f : Redirection) : f.chars [] = [] := by
  rw [chars, pieces_nil]
  rfl

theorem chars_append (f : Redirection) (h : pieces (l ++ rest) = ps ++ pieces rest) :
    f.chars (l ++ rest) = ps.flatMap f.piece ++ f.chars rest := by
  rw [chars, h, List.flatMap_append, chars]

theorem piece_of_not_refers {p : Piece} (h : p.refers = false) : f.piece p = p.chars := by
  cases p with
  | quoted inner => rfl
  | lone written => cases h
  | pair first second => cases h
  | other c => rfl

/-- Text without references does not change. -/
theorem chars_append_eq (f : Redirection) (h : pieces (l ++ rest) = ps ++ pieces rest)
    (unchanged : ∀ p ∈ ps, p.refers = false) : f.chars (l ++ rest) = l ++ f.chars rest := by
  have whole := flatMap_chars_pieces (l ++ rest)
  rw [h, List.flatMap_append, flatMap_chars_pieces] at whole
  have same : ps.flatMap f.piece = ps.flatMap Piece.chars := by
    rw [List.flatMap_def, List.flatMap_def,
      List.map_congr_left fun p hp => piece_of_not_refers (unchanged p hp)]
  rw [f.chars_append h, same, List.append_cancel_right whole]

theorem chars_append_signs (f : Redirection)
    (h : ∀ c ∈ l, c ≠ '"' ∧ (c.isAlpha || c == '$') = false) :
    f.chars (l ++ rest) = l ++ f.chars rest := by
  refine f.chars_append_eq (pieces_signs h) ?_
  intro p hp
  obtain ⟨c, -, rfl⟩ := List.mem_map.mp hp
  rfl

theorem sign_of_isBlank (h : Text.isBlank c) : c ≠ '"' ∧ (c.isAlpha || c == '$') = false := by
  refine ⟨?_, ?_⟩
  · rintro rfl
    exact absurd h (by decide)
  · cases name : c.isAlpha || c == '$' with
    | false => rfl
    | true => exact absurd h (Token.not_isBlank_of_name name)

theorem chars_blanks_append (f : Redirection) (h : ∀ c ∈ l, Text.isBlank c) :
    f.chars (l ++ rest) = l ++ f.chars rest :=
  f.chars_append_signs fun c hc => sign_of_isBlank (h c hc)

/-! ### How a redirected text begins -/

theorem head_chars_reference (r : Reference) :
    ∃ d ds, r.chars = d :: ds ∧ (d.isAlpha || d == '$') := by
  cases fixed : r.colFixed with
  | true =>
      refine ⟨'$', r.spelling.letters ++ (Spelling.marker r.rowFixed ++ r.spelling.digits), ?_, rfl⟩
      rw [Reference.chars, Spelling.chars, show r.spelling.colFixed = true from fixed]
      rfl
  | false =>
      obtain ⟨d, ds, letters⟩ := List.exists_cons_of_ne_nil
        (Column.letters_ne_nil r.address.col)
      have alpha : d.isAlpha :=
        Column.isAlpha_of_mem_numeral d (by rw [← Column.letters, letters]; simp)
      refine ⟨d, ds ++ (Spelling.marker r.rowFixed ++ r.spelling.digits), ?_, by simp [alpha]⟩
      rw [Reference.chars, Spelling.chars, show r.spelling.colFixed = false from fixed,
        show r.spelling.letters = d :: ds from letters]
      rfl

/-- What stands for a piece begins as the piece does, with a reference, or with a hash sign. -/
theorem head_piece (f : Redirection) (p : Piece) : f.piece p = p.chars ∨
    ∃ d ds, f.piece p = d :: ds ∧ ((d.isAlpha || d == '$') ∨ d = '#') := by
  have lost : ∃ d ds, lostChars = d :: ds ∧ ((d.isAlpha || d == '$') ∨ d = '#') :=
    ⟨'#', ['R', 'E', 'F', '!'], rfl, .inr rfl⟩
  cases p with
  | quoted inner => exact .inl rfl
  | other c => exact .inl rfl
  | lone written =>
      cases h : Reference.ofChars written with
      | error cause =>
          left
          simp only [piece, h]
      | ok r =>
          right
          simp only [piece, h]
          cases f.lone r with
          | none => exact lost
          | some r' =>
              obtain ⟨d, ds, same, name⟩ := head_chars_reference r'
              exact ⟨d, ds, same, .inl name⟩
  | pair first second =>
      cases ha : Reference.ofChars first with
      | error cause =>
          left
          simp only [piece, ha]
      | ok a =>
          cases hb : Reference.ofChars second with
          | error cause =>
              left
              simp only [piece, ha, hb]
          | ok b =>
              right
              simp only [piece, ha, hb]
              cases f.pair a b with
              | none => exact lost
              | some moved =>
                  obtain ⟨d, ds, same, name⟩ := head_chars_reference moved.1
                  refine ⟨d, ds ++ ':' :: moved.2.chars, ?_, .inl name⟩
                  show pairChars moved.1 moved.2 = _
                  rw [pairChars, same]
                  rfl

/-- A redirected text begins as the text does, or both begin with references, lost ones included. -/
theorem head_chars (f : Redirection) (c : Char) (cs : List Char) :
    ∃ d ds, f.chars (c :: cs) = d :: ds ∧
      (d = c ∨ (c.isAlpha || c == '$') ∧ ((d.isAlpha || d == '$') ∨ d = '#')) := by
  have text := Piece.next_chars c cs
  have whole : f.chars (c :: cs) =
      f.piece (Piece.next c cs).1 ++ f.chars (Piece.next c cs).2 := by
    rw [chars, pieces_cons]
    rfl
  obtain ⟨d, ds, front⟩ := List.exists_cons_of_ne_nil (Piece.chars_next_ne_nil c cs)
  have unchanged (same : f.piece (Piece.next c cs).1 = (Piece.next c cs).1.chars) :
      f.chars (c :: cs) = c :: (ds ++ f.chars (Piece.next c cs).2) := by
    rw [front] at text same
    have first : d = c := (List.cons.inj text).1
    rw [whole, same, first]
    rfl
  cases name : c.isAlpha || c == '$' with
  | false => exact ⟨c, _, unchanged (piece_of_not_refers (refers_next name cs)), .inl rfl⟩
  | true =>
      rcases f.head_piece (Piece.next c cs).1 with same | ⟨e, es, same, kind⟩
      · exact ⟨c, _, unchanged same, .inl rfl⟩
      · refine ⟨e, es ++ f.chars (Piece.next c cs).2, ?_, .inr ⟨rfl, kind⟩⟩
        rw [whole, same]
        rfl

/-- A redirected text goes on like the text, as far as a token in front of it can tell. -/
theorem sameStart_chars (f : Redirection) (cs : List Char) : SameStart cs (f.chars cs) := by
  cases cs with
  | nil =>
      rw [chars_nil]
      exact .refl []
  | cons c cs =>
      obtain ⟨d, ds, same, rfl | ⟨name, kind⟩⟩ := f.head_chars c cs
      · exact .of_head_eq (by rw [same]; rfl)
      · rw [same]
        exact .of_name name kind

/-- Redirecting changes neither the blanks in front of a formula nor its equals sign. -/
theorem content_chars (f : Redirection) (cs : List Char) :
    content (f.chars cs) = f.chars (content cs) := by
  obtain ⟨front, blanks, text | ⟨text, head⟩⟩ := exists_content cs
  · have equals : f.chars (['='] ++ content cs) = ['='] ++ f.chars (content cs) :=
      f.chars_append_signs (by simp)
    rw [List.singleton_append, List.singleton_append] at equals
    generalize content cs = core at *
    rw [text, f.chars_blanks_append blanks, equals, content_equals blanks]
  · generalize content cs = core at *
    rw [text, f.chars_blanks_append blanks, content_other blanks]
    intro d hd
    cases core with
    | nil =>
        rw [chars_nil] at hd
        cases hd
    | cons c core =>
        obtain ⟨d', ds, same, kind⟩ := f.head_chars c core
        rw [same] at hd
        cases hd
        rcases kind with rfl | ⟨-, name | rfl⟩
        · exact head d rfl
        · refine ⟨Token.not_isBlank_of_name name, ?_⟩
          rintro rfl
          cases name
        · decide

/-- The tokens of a redirected formula are those of its text behind the equals sign. -/
theorem tokenize_text (f : Redirection) (s : String) :
    tokenize (f.text s) = tokens (f.chars (content s.toList)) := by
  rw [tokenize, text, String.toList_ofList, tokens_body, content_chars]

end Redirection

end Formula

end Spreadsheet
