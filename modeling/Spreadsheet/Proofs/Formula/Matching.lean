import Spreadsheet.Proofs.Formula.Pieces
import Spreadsheet.Proofs.Text.Classes
import Spreadsheet.Proofs.Text.Pattern

/-!
# Pieces as matches of a pattern

The references of a formula are what a pattern finds in its text: a text between two quotes, or a
reference that may be followed by a colon and another one, each of them in a group. The piece in
front of a text is the way in which the pattern is matched there, and a single character if it is
not.

Redirecting the references of a text is replacing the matches: one without a reference stays, and so
does one in which what has the form of a reference lies off the grid.
-/

namespace Spreadsheet

namespace Pattern

/-- A dollar sign or none. -/
def marker : Pattern :=
  optional (one (· == '$'))

/-- The row of a reference. -/
def row : Pattern :=
  both marker (several Char.isDigit)

/-- What has the form of a reference. -/
def reference : Pattern :=
  both marker (both (several Char.isAlpha) row)

/-- A text between two quotes. -/
def quoted : Pattern :=
  both (one (· == '"')) (both (many (· != '"')) (one (· == '"')))

/-- Behind a reference there may be a colon and another one. -/
def second : Pattern :=
  optional (both (one (· == ':')) (group 2 reference))

/-- What is looked for in the text of a formula. -/
def piece : Pattern :=
  either quoted (both (group 1 reference) second)

variable {b : Pattern} {c : Char} {cs : List Char}

/-! ### References -/

theorem first?_marker (blocked : ∀ cs, b.first? ('$' :: cs) = none) :
    (both marker b).first? cs =
      (b.first? (Spelling.takeMarker cs).2).map
        (.append ⟨Spelling.marker (Spelling.takeMarker cs).1, [], (Spelling.takeMarker cs).2⟩) := by
  cases cs with
  | nil =>
      rw [first?_both]
      exact List.findSome?_singleton
  | cons c cs =>
      rw [marker, first?_both_optional_one fun c cs sign => by rw [beq_iff_eq.mp sign, blocked]]
      by_cases sign : c = '$'
      · subst sign
        rfl
      · rw [if_neg (by simpa using sign), Spelling.takeMarker_of_ne sign]
        exact (congrFun Option.map_id _).symm

theorem first?_row : row.first? cs =
    if ((Spelling.takeMarker cs).2.takeWhile Char.isDigit).isEmpty then none else
      some ⟨Spelling.marker (Spelling.takeMarker cs).1 ++
        (Spelling.takeMarker cs).2.takeWhile Char.isDigit, [],
          (Spelling.takeMarker cs).2.dropWhile Char.isDigit⟩ := by
  have blocked (cs : List Char) : (several Char.isDigit).first? ('$' :: cs) = none :=
    first?_several
  rw [row, first?_marker blocked, first?_several]
  split <;> rfl

theorem first?_row_letter (letter : c.isAlpha) (cs : List Char) : row.first? (c :: cs) = none := by
  have sign : c ≠ '$' := by
    rintro rfl
    exact absurd letter (by decide)
  rw [first?_row, Spelling.takeMarker_of_ne sign,
    List.takeWhile_cons_of_neg (Text.not_isDigit_of_isAlpha letter)]
  rfl

/-- The pattern finds what has the form of a reference. -/
theorem first?_reference : reference.first? cs =
    (Piece.reference? cs).map fun found => ⟨found.1, [], found.2⟩ := by
  have blocked (cs : List Char) :
      (both (several Char.isAlpha) row).first? ('$' :: cs) = none := by
    rw [first?_both_several fun c cs letter => first?_row_letter letter cs]
    rfl
  rw [reference, first?_marker blocked,
    first?_both_several fun c cs letter => first?_row_letter letter cs, first?_row,
    Piece.reference?]
  dsimp only [Spelling.split]
  generalize Spelling.takeMarker cs = column
  generalize Spelling.takeMarker (column.2.dropWhile Char.isAlpha) = line
  cases letters : column.2.takeWhile Char.isAlpha with
  | nil => rfl
  | cons d letters =>
      cases digits : line.2.takeWhile Char.isDigit with
      | nil => rfl
      | cons d' digits => simp [Spelling.isComplete, Spelling.chars, Way.append]

/-! ### Pieces -/

theorem first?_quoted_of_ne (h : c ≠ '"') : quoted.first? (c :: cs) = none := by
  rw [quoted, first?_both_one, if_neg (by simpa using h)]

theorem first?_quoted : quoted.first? ('"' :: cs) =
    match cs.dropWhile (· != '"') with
    | [] => none
    | _ :: rest => some ⟨'"' :: (cs.takeWhile (· != '"') ++ ['"']), [], rest⟩ := by
  have blocked (c : Char) (cs : List Char) (inside : (c != '"') = true) :
      (one (· == '"')).first? (c :: cs) = none := by
    rw [first?_one, if_neg (by simpa using inside)]
  rw [quoted, first?_both_one, if_pos (beq_self_eq_true _), first?_both_many blocked]
  cases behind : cs.dropWhile (· != '"') with
  | nil => rfl
  | cons d rest =>
      rw [Piece.eq_quote_of_dropWhile behind, first?_one]
      rfl

theorem first?_second_of_ne (h : cs.head? ≠ some ':') : second.first? cs = some ⟨[], [], cs⟩ := by
  rw [second, first?_optional]
  cases cs with
  | nil => rfl
  | cons c cs =>
      have other : (c == ':') = false := by simpa using h
      rw [first?_both_one, other]
      rfl

theorem first?_second_colon (cs : List Char) : second.first? (':' :: cs) =
    match Piece.reference? cs with
    | some (written, rest) => some ⟨':' :: written, [(2, written)], rest⟩
    | none => some ⟨[], [], ':' :: cs⟩ := by
  rw [second, first?_optional, first?_both_one, if_pos (beq_self_eq_true _), first?_group,
    first?_reference]
  cases Piece.reference? cs <;> rfl

theorem isSome_first?_second (cs : List Char) : (second.first? cs).isSome := by
  rw [second, first?_optional]
  rfl

end Pattern

namespace Piece

open Pattern

variable {c : Char} {cs rest : List Char}

/-- The match that a piece is, given what follows it; a single character is none. -/
def way? : Piece → List Char → Option Pattern.Way
  | quoted inner, rest => some ⟨(quoted inner).chars, [], rest⟩
  | lone written, rest => some ⟨written, [(1, written)], rest⟩
  | pair first second, rest => some ⟨first ++ ':' :: second, [(1, first), (2, second)], rest⟩
  | other _, _ => none

/-- A match takes the characters of the piece. -/
theorem way?_cases (p : Piece) (rest : List Char) :
    (∃ c, p = other c) ∨ ∃ m, p.way? rest = some m ∧ m.taken = p.chars ∧ m.rest = rest := by
  cases p with
  | other c => exact .inl ⟨c, rfl⟩
  | quoted inner => exact .inr ⟨_, rfl, rfl, rfl⟩
  | lone written => exact .inr ⟨_, rfl, rfl, rfl⟩
  | pair first second => exact .inr ⟨_, rfl, rfl, rfl⟩

/-- Behind a reference the pattern goes on as the piece does. -/
theorem way?_fromReference (written rest : List Char) :
    (fromReference written rest).1.way? (fromReference written rest).2 =
      (second.first? rest).map (Way.append ⟨written, [(1, written)], rest⟩) := by
  unfold fromReference
  split
  · next behind =>
      rw [first?_second_colon]
      cases reference? behind with
      | none => simp [way?, Way.append]
      | some found => rfl
  · next noColon =>
      have other : rest.head? ≠ some ':' := by
        intro colon
        obtain ⟨behind, same⟩ := List.head?_eq_some_iff.mp colon
        exact noColon behind same
      rw [first?_second_of_ne other]
      simp [way?, Way.append]

/-- The piece in front of a text is what the pattern matches there. -/
theorem first?_piece (c : Char) (cs : List Char) :
    piece.first? (c :: cs) = (next c cs).1.way? (next c cs).2 := by
  rw [piece, first?_either, first?_both_of_isSome isSome_first?_second, first?_group,
    first?_reference, next]
  split
  · next quote =>
      subst quote
      rw [first?_quoted, reference?_eq_none_of_start (by decide)]
      cases cs.dropWhile (· != '"') <;> rfl
  · next quote =>
      rw [first?_quoted_of_ne quote, Option.none_or]
      cases reference? (c :: cs) with
      | none => rfl
      | some found => exact (way?_fromReference found.1 found.2).symm

/-- The colon belongs to a match only if a reference comes at once. -/
example : (piece.first? "a1:$B2 : C3".toList).map Way.groups =
      some [(1, "a1".toList), (2, "$B2".toList)] ∧
    (piece.first? "a1 : $B2".toList).map Way.groups = some [(1, "a1".toList)] := by
  decide +kernel

end Piece

namespace Formula.Redirection

open Pattern

/-- What a match of the pattern is replaced by. -/
def replacement (f : Redirection) (m : Way) : List Char :=
  match m.groups.lookup 1 with
  | none => m.taken
  | some first =>
    match Reference.ofChars first, (m.groups.lookup 2).map Reference.ofChars with
    | .error _, _ => m.taken
    | .ok _, some (.error _) => m.taken
    | .ok a, none => ((f.lone a).map Reference.chars).getD lostChars
    | .ok a, some (.ok b) => ((f.pair a b).map fun (a, b) => pairChars a b).getD lostChars

theorem piece_eq_replacement (f : Redirection) {p : Piece} {rest : List Char} {m : Way}
    (h : p.way? rest = some m) : f.piece p = f.replacement m := by
  cases p with
  | other c => cases h
  | quoted inner =>
      cases h
      rfl
  | lone written =>
      cases h
      cases found : Reference.ofChars written <;>
        simp [piece, replacement, List.lookup_cons, Piece.chars, found]
  | pair first second =>
      cases h
      cases found : Reference.ofChars first <;> cases found' : Reference.ofChars second <;>
        simp [piece, replacement, List.lookup_cons, Piece.chars, found, found']

/-- Redirecting the references of a text is replacing the matches of the pattern. -/
theorem chars_eq_replaceAll (f : Redirection) (cs : List Char) :
    f.chars cs = Pattern.piece.replaceAll f.replacement cs := by
  induction cs using pieces.induct with
  | case1 =>
      rw [chars, pieces_nil, Pattern.replaceAll]
      rfl
  | case2 c cs ih =>
      have front :
          f.chars (c :: cs) = f.piece (Piece.next c cs).1 ++ f.chars (Piece.next c cs).2 := by
        rw [chars, pieces_cons, List.flatMap_cons, ← chars]
      have whole := Piece.next_chars c cs
      have first := Piece.first?_piece c cs
      rw [front, ih]
      rcases Piece.way?_cases (Piece.next c cs).1 (Piece.next c cs).2 with
        ⟨d, alone⟩ | ⟨m, way, taken, rest⟩
      · rw [alone] at first whole ⊢
        obtain ⟨rfl, same⟩ := List.cons.inj whole
        have behind : (Piece.next d cs).2 = cs := same
        rw [replaceAll_of_none first, behind]
        rfl
      · have nonempty : m.taken ≠ [] := by
          rw [taken]
          exact Piece.chars_next_ne_nil c cs
        rw [piece_eq_replacement f way, replaceAll_of_some (first.trans way) nonempty, rest]

end Formula.Redirection

end Spreadsheet
