import Spreadsheet.Proofs.Formula.Redirecting
import Spreadsheet.Proofs.Reference.OneAxis

/-!
# Redirecting a text step by step

Redirecting a text twice goes through the pieces of the text in between, which has been written by
the first redirection. These are the old pieces with their references replaced: a new reference
does not run into the characters around it, and what was no reference does not become one. So both
steps can be made at once, whatever the text is, a correct formula or not.

In `A$B1` the dollar sign is all that keeps the letter in front apart from the reference.
Redirections that may take such a dollar sign away are therefore left out.
-/

namespace Spreadsheet.Formula

open Piece

variable {c : Char} {cs rest : List Char} {s s' : Spelling}

/-! ### Cutting a text into pieces, by induction -/

/-- A property of texts holds of all of them if each kind of piece can be put in front. -/
theorem pieces_induction {motive : List Char → Prop} (nil : motive [])
    (quoted : ∀ inner rest, '"' ∉ inner → motive rest → motive ('"' :: (inner ++ '"' :: rest)))
    (other : ∀ c rest, reference? (c :: rest) = none → (c = '"' → '"' ∉ rest) → motive rest →
      motive (c :: rest))
    (lone : ∀ (s : Spelling) rest, s.Numbered → s.letters ≠ [] → (∀ c ∈ rest.head?, ¬ c.isDigit) →
      (∀ behind, rest = ':' :: behind → reference? behind = none) → motive rest →
      motive (s.chars ++ rest))
    (pair : ∀ (s s' : Spelling) rest, s.Numbered → s.letters ≠ [] → s'.Numbered →
      s'.letters ≠ [] → (∀ c ∈ rest.head?, ¬ c.isDigit) → motive rest →
      motive (s.chars ++ ':' :: (s'.chars ++ rest)))
    (cs : List Char) : motive cs := by
  induction cs using pieces.induct with
  | case1 => exact nil
  | case2 c cs ih =>
      have whole := Piece.next_chars c cs
      unfold Piece.next at ih whole
      split at ih
      · next quote =>
          subst quote
          have start : reference? ('"' :: cs) = none := reference?_eq_none_of_start (by decide)
          cases behind : cs.dropWhile (· != '"') with
          | nil =>
              have unquoted : '"' ∉ cs := fun mem => by
                simpa using List.dropWhile_eq_nil_iff.mp behind '"' mem
              rw [behind] at ih
              exact other _ _ start (fun _ => unquoted) ih
          | cons d rest =>
              rw [behind] at ih
              simp only [if_pos, behind] at whole
              rw [← whole, chars, List.cons_append, List.append_assoc, List.singleton_append]
              refine quoted _ _ (fun mem => ?_) ih
              simpa using List.mem_takeWhile_imp mem
      · next quote =>
          cases front : reference? (c :: cs) with
          | none =>
              rw [front] at ih
              exact other _ _ front (fun same => absurd same quote) ih
          | some found =>
              obtain ⟨written, rest⟩ := found
              obtain ⟨s, numbered, letters, rfl, text, boundary⟩ := exists_of_reference? front
              rw [text]
              simp only [front] at ih
              unfold fromReference at ih
              split at ih
              · next behind =>
                  cases second : reference? behind with
                  | none =>
                      rw [second] at ih
                      refine lone s _ numbered letters boundary (fun behind' same => ?_) ih
                      cases same
                      exact second
                  | some found' =>
                      obtain ⟨written', rest'⟩ := found'
                      obtain ⟨s', numbered', letters', rfl, rfl, boundary'⟩ :=
                        exists_of_reference? second
                      rw [second] at ih
                      exact pair s s' rest' numbered letters numbered' letters' boundary' ih
              · next alone =>
                  exact lone s rest numbered letters boundary
                    (fun behind same => absurd same (alone behind)) ih

/-- A character that begins neither a reference nor a text stands for itself. -/
theorem pieces_cons_other (h : reference? (c :: rest) = none) (unquoted : c = '"' → '"' ∉ rest) :
    pieces (c :: rest) = other c :: pieces rest := by
  by_cases quote : c = '"'
  · have none : rest.dropWhile (· != '"') = [] := by
      refine List.dropWhile_eq_nil_iff.mpr fun d hd => ?_
      simp only [bne_iff_ne]
      rintro rfl
      exact unquoted quote hd
    rw [pieces_cons, Piece.next, if_pos quote, none]
  · exact pieces_other quote h

/-! ### What follows the letters of a column -/

/-- Whether a text goes on with the row of a reference behind the letters at its front, if there
are any. -/
def rowBehind (cs : List Char) : Bool :=
  (Spelling.takeMarker (cs.dropWhile Char.isAlpha)).2.head?.any Char.isDigit

theorem rowBehind_letter (h : c.isAlpha) : rowBehind (c :: cs) = rowBehind cs := by
  rw [rowBehind, List.dropWhile_cons_of_pos h, rowBehind]

theorem rowBehind_marker (cs : List Char) : rowBehind ('$' :: cs) = cs.head?.any Char.isDigit :=
  rfl

theorem rowBehind_sign (h : (c.isAlpha || c == '$') = false) :
    rowBehind (c :: cs) = c.isDigit := by
  obtain ⟨letter, marker⟩ : c.isAlpha = false ∧ c ≠ '$' := by simpa using h
  rw [rowBehind, List.dropWhile_cons_of_neg (by simp [letter]), Spelling.takeMarker_of_ne marker]
  rfl

theorem not_isEmpty_takeWhile (p : Char → Bool) (cs : List Char) :
    (!(cs.takeWhile p).isEmpty) = cs.head?.any p := by
  cases cs with
  | nil => rfl
  | cons c cs => cases h : p c <;> simp [h]

/-- A reference has letters and a row behind them. -/
theorem reference?_eq_none_iff (cs : List Char) : reference? cs = none ↔
    ¬ ((Spelling.takeMarker cs).2.head?.any Char.isAlpha ∧
      rowBehind (Spelling.takeMarker cs).2) := by
  have complete : reference? cs = none ↔ (Spelling.split cs).1.isComplete = false := by
    unfold reference?
    split
    split <;> simp [*]
  rw [complete, ← Bool.not_eq_true, rowBehind, ← not_isEmpty_takeWhile, ← not_isEmpty_takeWhile,
    ← Bool.and_eq_true]
  rfl

theorem reference?_letter_iff (h : c.isAlpha) : reference? (c :: cs) = none ↔ ¬ rowBehind cs := by
  have marker : c ≠ '$' := by
    rintro rfl
    cases h
  rw [reference?_eq_none_iff, Spelling.takeMarker_of_ne marker, rowBehind_letter h]
  simp [h]

theorem reference?_marker_iff : reference? ('$' :: cs) = none ↔
    ¬ (cs.head?.any Char.isAlpha ∧ rowBehind cs) :=
  reference?_eq_none_iff ('$' :: cs)

/-- How a reference begins shows whether the dollar sign of its column is written. -/
theorem head_chars_spelling (numbered : s.Numbered) (letters : s.letters ≠ []) (rest : List Char) :
    (s.chars ++ rest).head?.any Char.isAlpha = !s.colFixed := by
  obtain ⟨c, cs, same⟩ := List.exists_cons_of_ne_nil letters
  have alpha : c.isAlpha := numbered.letters c (by simp [same])
  cases fixed : s.colFixed <;> simp [Spelling.chars, Spelling.marker, fixed, same, alpha]

/-- The dollar sign of a column hides the row behind it. -/
theorem rowBehind_chars (numbered : s.Numbered) (letters : s.letters ≠ [])
    (boundary : ∀ c ∈ rest.head?, ¬ c.isDigit) : rowBehind (s.chars ++ rest) = !s.colFixed := by
  obtain ⟨c, cs, same⟩ := List.exists_cons_of_ne_nil letters
  have alpha : c.isAlpha := numbered.letters c (by simp [same])
  have text : s.chars ++ rest = Spelling.marker s.colFixed ++
      c :: (cs ++ (Spelling.marker s.rowFixed ++ (s.digits ++ rest))) := by
    simp [Spelling.chars, same]
  have form := reference?_chars numbered letters boundary
  rw [text] at form ⊢
  cases fixed : s.colFixed with
  | true =>
      show rowBehind ('$' :: c :: _) = false
      rw [rowBehind_marker]
      simp [Text.not_isDigit_of_isAlpha alpha]
  | false =>
      rw [fixed] at form
      show rowBehind (c :: _) = true
      by_contra none
      rw [rowBehind_letter alpha, ← reference?_letter_iff alpha] at none
      cases none.symm.trans form

/-! ### What redirecting leaves alone -/

/-- Whether a redirection leaves the dollar sign of a column in front of a reference or of a
pair. -/
structure Redirection.KeepsMarkers (f : Redirection) : Prop where
  lone : ∀ {r r'}, f.lone r = some r' → r'.colFixed = r.colFixed
  pair : ∀ {a b a' b'}, f.pair a b = some (a', b') → a'.colFixed = a.colFixed

theorem colFixed_of_ofChars (numbered : s.Numbered) {r : Reference}
    (h : Reference.ofChars s.chars = .ok r) : r.colFixed = s.colFixed := by
  have noBlank (c : Char) (hc : c ∈ s.chars) : ¬ Text.isBlank c :=
    (Spelling.of_mem_chars numbered.letters numbered.digits hc).1
  have split : Spelling.split (s.chars ++ []) = (s, []) := numbered.split_append (by simp)
  rw [List.append_nil] at split
  rw [Reference.ofChars, Text.trim_eq_self noBlank] at h
  obtain ⟨-, -, -, marker, -⟩ := Reference.readTrimmed_eq_ok h
  rw [marker, split]

/-- What a lost reference is cut into: single characters. -/
def lostPieces : List Piece :=
  lostChars.map .other

theorem pieces_lostChars_append (rest : List Char) :
    pieces (lostChars ++ rest) = lostPieces ++ pieces rest := by
  have letters : pieces ("REF".toList ++ '!' :: rest) =
      "REF".toList.map .other ++ pieces ('!' :: rest) :=
    pieces_letters (by simp) (by simp) (by simp) (by simp)
  show pieces ('#' :: ("REF".toList ++ '!' :: rest)) = _
  rw [pieces_sign (by decide) (by decide), letters, pieces_sign (by decide) (by decide)]
  rfl

namespace Redirection

/-- The pieces that take the place of a piece. -/
def image (f : Redirection) (p : Piece) : List Piece :=
  match p with
  | .lone written =>
    match Reference.ofChars written with
    | .ok r => (f.lone r).elim lostPieces fun r => [.lone r.chars]
    | .error _ => [p]
  | .pair first second =>
    match Reference.ofChars first, Reference.ofChars second with
    | .ok a, .ok b => (f.pair a b).elim lostPieces fun moved => [.pair moved.1.chars moved.2.chars]
    | _, _ => [p]
  | _ => [p]

theorem flatMap_chars_lostPieces : lostPieces.flatMap Piece.chars = lostChars := by
  decide

theorem flatMap_chars_image (f : Redirection) (p : Piece) :
    (f.image p).flatMap Piece.chars = f.piece p := by
  cases p with
  | quoted inner => simp [image, piece]
  | other c => simp [image, piece]
  | lone written =>
      cases read : Reference.ofChars written with
      | error cause => simp [image, piece, read]
      | ok r =>
          cases moved : f.lone r with
          | none => simp [image, piece, read, moved, flatMap_chars_lostPieces]
          | some r' => simp [image, piece, read, moved, Piece.chars]
  | pair first second =>
      cases read : Reference.ofChars first with
      | error cause => simp [image, piece, read]
      | ok a =>
          cases read' : Reference.ofChars second with
          | error cause => simp [image, piece, read, read']
          | ok b =>
              cases moved : f.pair a b with
              | none => simp [image, piece, read, read', moved, flatMap_chars_lostPieces]
              | some ends => simp [image, piece, read, read', moved, Piece.chars, pairChars]

variable {f : Redirection}

theorem chars_cons_other (f : Redirection) (h : reference? (c :: rest) = none)
    (unquoted : c = '"' → '"' ∉ rest) : f.chars (c :: rest) = c :: f.chars rest := by
  have cut : pieces ([c] ++ rest) = [.other c] ++ pieces rest := pieces_cons_other h unquoted
  exact f.chars_append_eq cut (by simp [Piece.refers])

/-- A sign at the front stays there. -/
theorem chars_cons_sign (f : Redirection) (sign : (c.isAlpha || c == '$') = false) :
    ∃ ds, f.chars (c :: rest) = c :: ds := by
  obtain ⟨d, ds, same, rfl | ⟨name, -⟩⟩ := f.head_chars c rest
  · exact ⟨ds, same⟩
  · rw [sign] at name
    cases name

section References

variable (numbered : s.Numbered) (letters : s.letters ≠ []) (numbered' : s'.Numbered)
  (letters' : s'.letters ≠ []) (boundary : ∀ c ∈ rest.head?, ¬ c.isDigit)

include numbered letters boundary

theorem chars_lone_append (f : Redirection)
    (alone : ∀ behind, rest = ':' :: behind → reference? behind = none) :
    f.chars (s.chars ++ rest) = f.piece (.lone s.chars) ++ f.chars rest := by
  have cut : pieces (s.chars ++ rest) = [.lone s.chars] ++ pieces rest :=
    pieces_lone numbered letters boundary alone
  rw [f.chars_append cut, List.flatMap_singleton]

include numbered' letters'

theorem chars_pair_append (f : Redirection) :
    f.chars (s.chars ++ ':' :: (s'.chars ++ rest)) =
      f.piece (.pair s.chars s'.chars) ++ f.chars rest := by
  have cut : pieces ((s.chars ++ ':' :: s'.chars) ++ rest) =
      [.pair s.chars s'.chars] ++ pieces rest := by
    rw [List.append_assoc, List.cons_append,
      pieces_pair numbered letters numbered' letters' boundary]
    rfl
  have text := f.chars_append cut
  rwa [List.flatMap_singleton, List.append_assoc, List.cons_append] at text

end References

section Markers

variable (keeps : f.KeepsMarkers) (numbered : s.Numbered) (letters : s.letters ≠ [])
  (numbered' : s'.Numbered) (letters' : s'.letters ≠ [])

include keeps numbered letters

/-- What takes the place of a reference is lost, or it is a reference with the same marker. -/
theorem image_lone : f.image (.lone s.chars) = lostPieces ∨ ∃ t : Spelling, t.Numbered ∧
    t.letters ≠ [] ∧ t.colFixed = s.colFixed ∧ f.image (.lone s.chars) = [.lone t.chars] := by
  unfold image
  cases read : Reference.ofChars s.chars with
  | error cause => exact .inr ⟨s, numbered, letters, rfl, by simp [read]⟩
  | ok r =>
      cases moved : f.lone r with
      | none => exact .inl (by simp [read, moved])
      | some r' =>
          refine .inr ⟨r'.spelling, r'.numbered_spelling, Column.letters_ne_nil _, ?_, ?_⟩
          · exact (keeps.lone moved).trans (colFixed_of_ofChars numbered read)
          · simp [read, moved, Reference.chars]

include numbered' letters'

theorem image_pair : f.image (.pair s.chars s'.chars) = lostPieces ∨ ∃ t t' : Spelling,
    t.Numbered ∧ t.letters ≠ [] ∧ t'.Numbered ∧ t'.letters ≠ [] ∧ t.colFixed = s.colFixed ∧
      f.image (.pair s.chars s'.chars) = [.pair t.chars t'.chars] := by
  have kept (h : f.image (.pair s.chars s'.chars) = [.pair s.chars s'.chars]) :
      ∃ t t' : Spelling, t.Numbered ∧ t.letters ≠ [] ∧ t'.Numbered ∧ t'.letters ≠ [] ∧
        t.colFixed = s.colFixed ∧ f.image (.pair s.chars s'.chars) = [.pair t.chars t'.chars] :=
    ⟨s, s', numbered, letters, numbered', letters', rfl, h⟩
  cases read : Reference.ofChars s.chars with
  | error cause => exact .inr (kept (by simp [image, read]))
  | ok a =>
      cases read' : Reference.ofChars s'.chars with
      | error cause => exact .inr (kept (by simp [image, read, read']))
      | ok b =>
          cases moved : f.pair a b with
          | none => exact .inl (by simp [image, read, read', moved])
          | some ends =>
              refine .inr ⟨ends.1.spelling, ends.2.spelling, ends.1.numbered_spelling,
                Column.letters_ne_nil _, ends.2.numbered_spelling, Column.letters_ne_nil _, ?_, ?_⟩
              · exact (keeps.pair moved).trans (colFixed_of_ofChars numbered read)
              · simp [image, read, read', moved, Reference.chars]

end Markers

/-! ### The redirected text begins no new reference -/

/-- Whether a text begins with a lost reference, or with a reference whose column is fixed or
not. -/
inductive Front (fixed : Bool) : List Char → Prop where
  | lost (rest : List Char) : Front fixed (lostChars ++ rest)
  | reference {s : Spelling} {rest : List Char} : s.Numbered → s.letters ≠ [] →
      s.colFixed = fixed → (∀ c ∈ rest.head?, ¬ c.isDigit) → Front fixed (s.chars ++ rest)

theorem Front.relative_of_letter {fixed : Bool} (h : Front fixed cs)
    (letter : cs.head?.any Char.isAlpha) : fixed = false := by
  cases h with
  | lost => cases letter
  | reference numbered letters same _ =>
      rw [head_chars_spelling numbered letters, same] at letter
      simpa using letter

theorem Front.relative_of_rowBehind {fixed : Bool} (h : Front fixed cs) (row : rowBehind cs) :
    fixed = false := by
  cases h with
  | lost => cases row
  | reference numbered letters same boundary =>
      rw [rowBehind_chars numbered letters boundary, same] at row
      simpa using row

theorem any_isDigit_chars (f : Redirection) (h : (f.chars cs).head?.any Char.isDigit) :
    cs.head?.any Char.isDigit := by
  obtain ⟨d, head, digit⟩ := (Option.any_eq_true _ _).mp h
  by_contra none
  refine (f.sameStart_chars cs).digit (fun c hc digit' => none ?_) d head digit
  exact (Option.any_eq_true _ _).mpr ⟨c, hc, digit'⟩

section Begins

variable (keeps : f.KeepsMarkers)

include keeps

theorem front_lone (numbered : s.Numbered) (letters : s.letters ≠ [])
    (boundary : ∀ c ∈ rest.head?, ¬ c.isDigit)
    (alone : ∀ behind, rest = ':' :: behind → reference? behind = none) :
    Front s.colFixed (f.chars (s.chars ++ rest)) := by
  rw [chars_lone_append numbered letters boundary f alone, ← flatMap_chars_image]
  rcases image_lone keeps numbered letters with same | ⟨t, numbered', letters', marker, same⟩
  · rw [same, flatMap_chars_lostPieces]
    exact .lost _
  · rw [same, List.flatMap_singleton]
    exact .reference numbered' letters' marker ((f.sameStart_chars rest).digit boundary)

theorem front_pair (numbered : s.Numbered) (letters : s.letters ≠ []) (numbered' : s'.Numbered)
    (letters' : s'.letters ≠ []) (boundary : ∀ c ∈ rest.head?, ¬ c.isDigit) :
    Front s.colFixed (f.chars (s.chars ++ ':' :: (s'.chars ++ rest))) := by
  rw [chars_pair_append numbered letters numbered' letters' boundary, ← flatMap_chars_image]
  rcases image_pair keeps numbered letters numbered' letters' with
    same | ⟨t, t', numbered, letters, -, -, marker, same⟩
  · rw [same, flatMap_chars_lostPieces]
    exact .lost _
  · rw [same, List.flatMap_singleton, Piece.chars, List.append_assoc]
    exact .reference numbered letters marker (by simp)

/-- A redirected text begins with a letter only if the text does: no dollar sign in front of one
has been taken away. -/
theorem letter_of_chars (h : (f.chars cs).head?.any Char.isAlpha) : cs.head?.any Char.isAlpha := by
  cases cs using pieces_induction with
  | nil => rwa [chars_nil] at h
  | quoted inner rest unquoted =>
      obtain ⟨ds, same⟩ := f.chars_cons_sign (c := '"') (by decide)
      rw [same] at h
      cases h
  | other c rest none unquoted =>
      rwa [f.chars_cons_other none unquoted] at h
  | lone s rest numbered letters boundary alone =>
      rw [head_chars_spelling numbered letters,
        (front_lone keeps numbered letters boundary alone).relative_of_letter h]
      rfl
  | pair s s' rest numbered letters numbered' letters' boundary =>
      rw [head_chars_spelling numbered letters, (front_pair keeps numbered letters numbered'
        letters' boundary).relative_of_letter h]
      rfl

/-- Redirecting brings in no row behind the letters at the front. -/
theorem rowBehind_of_chars (h : rowBehind (f.chars cs)) : rowBehind cs := by
  induction cs using pieces_induction with
  | nil => rwa [chars_nil] at h
  | quoted inner rest unquoted =>
      obtain ⟨ds, same⟩ := f.chars_cons_sign (c := '"') (by decide)
      rw [same] at h
      cases h
  | other c rest none unquoted ih =>
      cases name : c.isAlpha || c == '$' with
      | false =>
          obtain ⟨ds, same⟩ := f.chars_cons_sign name
          rw [same, rowBehind_sign name] at h
          rwa [rowBehind_sign name]
      | true =>
          -- A letter is passed over; a dollar sign has to have a digit behind it at once.
          rw [f.chars_cons_other none unquoted] at h
          by_cases marker : c = '$'
          · subst marker
            rw [rowBehind_marker] at h ⊢
            exact f.any_isDigit_chars h
          · have letter : c.isAlpha := by simpa [marker] using name
            rw [rowBehind_letter letter] at h ⊢
            exact ih h
  | lone s rest numbered letters boundary alone =>
      rw [rowBehind_chars numbered letters boundary,
        (front_lone keeps numbered letters boundary alone).relative_of_rowBehind h]
      rfl
  | pair s s' rest numbered letters numbered' letters' boundary =>
      rw [rowBehind_chars numbered letters (by simp), (front_pair keeps numbered letters numbered'
        letters' boundary).relative_of_rowBehind h]
      rfl

/-- Where no reference begins, none begins in the redirected text. -/
theorem reference?_chars_eq_none (h : reference? cs = none) : reference? (f.chars cs) = none := by
  cases cs with
  | nil => rwa [chars_nil]
  | cons c cs =>
      cases name : c.isAlpha || c == '$' with
      | false =>
          obtain ⟨ds, same⟩ := f.chars_cons_sign name
          rw [same]
          exact reference?_eq_none_of_start name
      | true =>
          rw [f.chars_cons_other h (by rintro rfl; cases name)]
          by_cases marker : c = '$'
          · subst marker
            rw [reference?_marker_iff] at h ⊢
            exact fun ⟨letter, row⟩ =>
              h ⟨letter_of_chars keeps letter, rowBehind_of_chars keeps row⟩
          · have letter : c.isAlpha := by simpa [marker] using name
            rw [reference?_letter_iff letter] at h ⊢
            exact fun row => h (rowBehind_of_chars keeps row)

theorem alone_chars (alone : ∀ behind, rest = ':' :: behind → reference? behind = none)
    (behind : List Char) (colon : f.chars rest = ':' :: behind) : reference? behind = none := by
  cases rest with
  | nil =>
      rw [chars_nil] at colon
      cases colon
  | cons c rest =>
      obtain ⟨d, ds, same, rfl | ⟨-, kind⟩⟩ := f.head_chars c rest
      · rw [same] at colon
        cases colon
        rw [f.chars_cons_other (reference?_eq_none_of_start (by decide)) (by simp)] at same
        cases same
        exact reference?_chars_eq_none keeps (alone rest rfl)
      · rw [same] at colon
        cases colon
        simp at kind

/-- Redirecting brings in no quotes. -/
theorem quote_not_mem_chars (h : '"' ∉ cs) : '"' ∉ f.chars cs := by
  have written {s : Spelling} (numbered : s.Numbered) : '"' ∉ s.chars := fun mem =>
    (Spelling.of_mem_chars numbered.letters numbered.digits mem).2 rfl
  induction cs using pieces_induction with
  | nil => rwa [chars_nil]
  | quoted inner rest unquoted ih => exact absurd List.mem_cons_self h
  | other c rest none unquoted ih =>
      rw [List.mem_cons, not_or] at h
      rw [f.chars_cons_other none unquoted, List.mem_cons, not_or]
      exact ⟨h.1, ih h.2⟩
  | lone s rest numbered letters boundary alone ih =>
      rw [List.mem_append, not_or] at h
      rw [chars_lone_append numbered letters boundary f alone, ← flatMap_chars_image,
        List.mem_append, not_or]
      refine ⟨?_, ih h.2⟩
      rcases image_lone keeps numbered letters with same | ⟨t, numbered', -, -, same⟩
      · rw [same, flatMap_chars_lostPieces]
        decide
      · rw [same, List.flatMap_singleton]
        exact written numbered'
  | pair s s' rest numbered letters numbered' letters' boundary ih =>
      simp only [List.mem_append, List.mem_cons, not_or] at h
      rw [chars_pair_append numbered letters numbered' letters' boundary, ← flatMap_chars_image,
        List.mem_append, not_or]
      refine ⟨?_, ih h.2.2.2⟩
      rcases image_pair keeps numbered letters numbered' letters' with
        same | ⟨t, t', first, -, second, -, -, same⟩
      · rw [same, flatMap_chars_lostPieces]
        decide
      · simp [same, Piece.chars, written first, written second]

/-! ### The pieces of the redirected text -/

/-- The pieces of a redirected text are the old ones, with others in the place of references. -/
theorem pieces_chars (cs : List Char) : pieces (f.chars cs) = (pieces cs).flatMap f.image := by
  induction cs using pieces_induction with
  | nil => simp [chars_nil, pieces_nil]
  | quoted inner rest unquoted ih =>
      have cut : pieces (('"' :: (inner ++ ['"'])) ++ rest) = [.quoted inner] ++ pieces rest := by
        rw [List.cons_append, List.append_assoc, List.singleton_append, pieces_quoted unquoted]
        rfl
      have text := f.chars_append_eq cut (by simp [Piece.refers])
      rw [List.cons_append, List.append_assoc, List.singleton_append] at text
      simp [text, pieces_quoted unquoted, ih, image]
  | other c rest none unquoted ih =>
      have text := f.chars_cons_other none unquoted
      have none' : reference? (c :: f.chars rest) = .none := by
        rw [← text]
        exact reference?_chars_eq_none keeps none
      rw [text, pieces_cons_other none' fun quote => quote_not_mem_chars keeps (unquoted quote),
        pieces_cons_other none unquoted, ih]
      rfl
  | lone s rest numbered letters boundary alone ih =>
      rw [chars_lone_append numbered letters boundary f alone, ← flatMap_chars_image,
        pieces_lone numbered letters boundary alone, List.flatMap_cons, ← ih]
      rcases image_lone keeps numbered letters with same | ⟨t, numbered', letters', -, same⟩
      · rw [same, flatMap_chars_lostPieces, pieces_lostChars_append]
      · rw [same, List.flatMap_singleton, Piece.chars, pieces_lone numbered' letters'
          ((f.sameStart_chars rest).digit boundary)]
        · rfl
        · exact alone_chars keeps alone
  | pair s s' rest numbered letters numbered' letters' boundary ih =>
      rw [chars_pair_append numbered letters numbered' letters' boundary, ← flatMap_chars_image,
        pieces_pair numbered letters numbered' letters' boundary, List.flatMap_cons, ← ih]
      rcases image_pair keeps numbered letters numbered' letters' with
        same | ⟨t, t', first, nonempty, second, nonempty', -, same⟩
      · rw [same, flatMap_chars_lostPieces, pieces_lostChars_append]
      · rw [same, List.flatMap_singleton, Piece.chars, List.append_assoc, List.cons_append,
          pieces_pair first nonempty second nonempty' ((f.sameStart_chars rest).digit boundary)]
        rfl

end Begins

/-! ### Two steps at once -/

/-- One redirection behind another one. What the first one loses is lost. -/
def andThen (f g : Redirection) : Redirection where
  lone r := (f.lone r).bind g.lone
  pair a b := (f.pair a b).bind fun moved => g.pair moved.1 moved.2

theorem StaysOnGrid.andThen {g : Redirection} (hf : f.StaysOnGrid) (hg : g.StaysOnGrid) :
    (f.andThen g).StaysOnGrid where
  lone h moved := by
    obtain ⟨r, first, second⟩ := Option.bind_eq_some_iff.mp moved
    exact hg.lone (hf.lone h first) second
  pair h h' moved := by
    obtain ⟨ends, first, second⟩ := Option.bind_eq_some_iff.mp moved
    obtain ⟨onGrid, onGrid'⟩ := hf.pair h h' first
    exact hg.pair onGrid onGrid' second

theorem flatMap_piece_lostPieces (g : Redirection) : lostPieces.flatMap g.piece = lostChars := by
  rw [← flatMap_chars_lostPieces, lostPieces, List.flatMap_map, List.flatMap_map]
  rfl

/-- The second step takes what the first one has written for what it is. -/
theorem flatMap_piece_image (grid : f.StaysOnGrid) (g : Redirection) (p : Piece) :
    (f.image p).flatMap g.piece = (f.andThen g).piece p := by
  cases p with
  | quoted inner => simp [image, piece]
  | other c => simp [image, piece]
  | lone written =>
      cases read : Reference.ofChars written with
      | error cause => simp [image, piece, read]
      | ok r =>
          cases moved : f.lone r with
          | none => simp [image, piece, andThen, read, moved, flatMap_piece_lostPieces]
          | some r' =>
              have again := Reference.ofChars_chars
                (grid.lone (Reference.inGrid_of_ofChars read) moved)
              simp [image, piece, andThen, read, moved, again]
  | pair first second =>
      cases read : Reference.ofChars first with
      | error cause => simp [image, piece, read]
      | ok a =>
          cases read' : Reference.ofChars second with
          | error cause => simp [image, piece, read, read']
          | ok b =>
              cases moved : f.pair a b with
              | none => simp [image, piece, andThen, read, read', moved, flatMap_piece_lostPieces]
              | some ends =>
                  obtain ⟨onGrid, onGrid'⟩ := grid.pair (Reference.inGrid_of_ofChars read)
                    (Reference.inGrid_of_ofChars read') moved
                  simp [image, piece, andThen, read, read', moved,
                    Reference.ofChars_chars onGrid, Reference.ofChars_chars onGrid']

theorem chars_chars (keeps : f.KeepsMarkers) (grid : f.StaysOnGrid) (g : Redirection)
    (cs : List Char) : g.chars (f.chars cs) = (f.andThen g).chars cs :=
  calc (pieces (f.chars cs)).flatMap g.piece
    _ = ((pieces cs).flatMap f.image).flatMap g.piece := by rw [pieces_chars keeps]
    _ = (pieces cs).flatMap fun p => (f.image p).flatMap g.piece := List.flatMap_assoc
    _ = (pieces cs).flatMap (f.andThen g).piece := by simp only [flatMap_piece_image grid]

/-- Redirecting a text twice is redirecting it once, whatever the text is. -/
theorem text_text (keeps : f.KeepsMarkers) (grid : f.StaysOnGrid) (g : Redirection)
    (text : String) : g.text (f.text text) = (f.andThen g).text text := by
  simp only [Redirection.text, String.toList_ofList, chars_chars keeps grid]

end Redirection

/-- An edit of lines leaves dollar signs alone. -/
theorem keepsMarkers_adjusting (e : LineEdit) : (adjusting e).KeepsMarkers where
  lone {r r'} moved := by
    have adjusted : r.adjust e = some r' := moved
    rw [LineEdit.adjust_eq, Option.map_eq_some_iff] at adjusted
    obtain ⟨i, -, rfl⟩ := adjusted
    exact Reference.colFixed_placed
  pair {a b a' b'} moved := by
    have adjusted : a.adjustRange b e = some (a', b') := moved
    rw [LineEdit.adjustRange_eq, Option.map_eq_some_iff] at adjusted
    obtain ⟨ends, -, same⟩ := adjusted
    cases same
    exact Reference.colFixed_placed

end Spreadsheet.Formula
