import Spreadsheet.Reference.LineEdit
import Spreadsheet.Reference.Offset

/-!
# Redirecting the references of a formula

Copying a formula, and inserting or deleting lines, change its text and only its references.
The text is cut into pieces: texts between two quotes, references, pairs of references joined by
a colon, and single characters for all the rest. Nothing but the references changes; what has
the form of a reference but lies off the grid is kept as it was written.

A reference that is redirected gets its canonical spelling even if it does not move. One that no
longer points anywhere becomes `#REF!`, and so does a pair when either end does. The text need
not be a correct formula.
-/

namespace Spreadsheet

/-- A piece of the text of a formula. -/
inductive Piece where
  /-- A text between quotes, without them. -/
  | quoted (inner : List Char)
  /-- What has the form of a reference. -/
  | lone (written : List Char)
  /-- Two of these with a colon between them. -/
  | pair (first second : List Char)
  /-- Any other character. -/
  | other (c : Char)
deriving DecidableEq, Repr

namespace Piece

/-- The characters of a piece. -/
def chars : Piece → List Char
  | quoted inner => '"' :: (inner ++ ['"'])
  | lone written => written
  | pair first second => first ++ ':' :: second
  | other c => [c]

/-- The reference in front of a text, as it is written, and what is left. -/
def reference? (cs : List Char) : Option (List Char × List Char) :=
  let (parts, rest) := Spelling.split cs
  if parts.isComplete then some (parts.chars, rest) else none

/-- The piece that begins with a reference, given what follows it. -/
def fromReference (written rest : List Char) : Piece × List Char :=
  match rest with
  | ':' :: behind =>
    match reference? behind with
    | some (second, rest) => (pair written second, rest)
    | none => (lone written, rest)
  | _ => (lone written, rest)

/-- The piece in front of a text that begins with `c`, and what is left. -/
def next (c : Char) (cs : List Char) : Piece × List Char :=
  if c = '"' then
    match cs.dropWhile (· != '"') with
    | _ :: rest => (quoted (cs.takeWhile (· != '"')), rest)
    | [] => (other c, cs)
  else
    match reference? (c :: cs) with
    | some (written, rest) => fromReference written rest
    | none => (other c, cs)

theorem reference?_suffix {cs written rest : List Char}
    (h : reference? cs = some (written, rest)) : written ++ rest = cs := by
  unfold reference? at h
  split at h
  next parts behind e =>
  split at h
  · obtain ⟨rfl, rfl⟩ := by simpa using h
    have := Spelling.chars_append_split cs
    rwa [e] at this
  · simp at h

theorem reference?_nonempty {cs written rest : List Char}
    (h : reference? cs = some (written, rest)) : written ≠ [] := by
  unfold reference? at h
  split at h
  next parts behind e =>
  split at h
  · next complete =>
    obtain ⟨rfl, rfl⟩ := by simpa using h
    intro empty
    simp [Spelling.chars] at empty
    simp [Spelling.isComplete, empty] at complete
  · simp at h

theorem fromReference_chars (written rest : List Char) :
    (fromReference written rest).1.chars ++ (fromReference written rest).2 = written ++ rest := by
  unfold fromReference
  split
  · split
    · next second behind e =>
      simp [chars, ← reference?_suffix e]
    · rfl
  · rfl

/-- What stops a text between quotes is a quote. -/
theorem eq_quote_of_dropWhile {d : Char} {cs rest : List Char}
    (h : cs.dropWhile (· != '"') = d :: rest) : d = '"' := by
  have stops := List.head_dropWhile_not (· != '"') (show cs.dropWhile (· != '"') ≠ [] by simp [h])
  simpa [h] using stops

/-- Cutting off a piece loses nothing. -/
theorem next_chars (c : Char) (cs : List Char) :
    (next c cs).1.chars ++ (next c cs).2 = c :: cs := by
  unfold next
  split
  · next quote =>
    subst quote
    split
    · next d rest e =>
      have split := List.takeWhile_append_dropWhile (p := (· != '"')) (l := cs)
      obtain rfl := eq_quote_of_dropWhile e
      rw [e] at split
      simp only [chars, List.cons_append, List.append_assoc, List.nil_append, split]
    · rfl
  · split
    · next written rest e =>
      rw [fromReference_chars, reference?_suffix e]
    · rfl

theorem chars_next_ne_nil (c : Char) (cs : List Char) : (next c cs).1.chars ≠ [] := by
  unfold next
  split
  · split <;> simp [chars]
  · split
    · next written rest e =>
      unfold fromReference
      split
      · split <;> simp [chars, reference?_nonempty e]
      · simp [chars, reference?_nonempty e]
    · simp [chars]

theorem next_length (c : Char) (cs : List Char) : (next c cs).2.length < (c :: cs).length := by
  have total := congrArg List.length (next_chars c cs)
  have := List.length_pos_iff.mpr (chars_next_ne_nil c cs)
  simp only [List.length_append] at total
  omega

end Piece

namespace Formula

/-- The pieces of a text. -/
def pieces : List Char → List Piece
  | [] => []
  | c :: cs => (Piece.next c cs).1 :: pieces (Piece.next c cs).2
termination_by cs => cs.length
decreasing_by exact Piece.next_length c cs

/-- What happens to the references of a formula. -/
structure Redirection where
  /-- Where a reference on its own goes. -/
  lone : Reference → Option Reference
  /-- Where the two ends of a range go. -/
  pair : Reference → Reference → Option (Reference × Reference)

/-- What stands for a reference that points nowhere. -/
def lostChars : List Char :=
  "#REF!".toList

/-- The characters of a pair of references. -/
def pairChars (first second : Reference) : List Char :=
  first.chars ++ ':' :: second.chars

namespace Redirection

/-- A piece of text with its references redirected. -/
def piece (f : Redirection) (p : Piece) : List Char :=
  match p with
  | .lone written =>
    match Reference.ofChars written with
    | .ok r => ((f.lone r).map Reference.chars).getD lostChars
    | .error _ => p.chars
  | .pair first second =>
    match Reference.ofChars first, Reference.ofChars second with
    | .ok a, .ok b => ((f.pair a b).map fun (a, b) => pairChars a b).getD lostChars
    | _, _ => p.chars
  | _ => p.chars

/-- A text with its references redirected. -/
def chars (f : Redirection) (cs : List Char) : List Char :=
  (pieces cs).flatMap f.piece

/-- A text with its references redirected. -/
def text (f : Redirection) (s : String) : String :=
  String.ofList (f.chars s.toList)

end Redirection

/-- Where a reference goes when its formula is copied by so many columns and rows. -/
def copyReference (cols rows : Int) (r : Reference) : Option Reference :=
  if r.fullyFixed then some r else r.offset cols rows

/-- Copying by a number of columns and rows. The ends of a range move independently. -/
def copying (cols rows : Int) : Redirection where
  lone := copyReference cols rows
  pair a b :=
    match copyReference cols rows a, copyReference cols rows b with
    | some a, some b => some (a, b)
    | _, _ => none

/-- Inserting or deleting a line. -/
def adjusting (e : LineEdit) : Redirection where
  lone r := r.adjust e
  pair a b := a.adjustRange b e

/-- The text of a formula at `source` as it reads when copied to `target`. -/
def copy (text : String) (source target : Address) : String :=
  (copying ((target.col : Int) - source.col) ((target.row : Int) - source.row)).text text

/-- The text of a formula after a line is inserted or deleted. -/
def adjust (text : String) (e : LineEdit) : String :=
  (adjusting e).text text

end Formula

end Spreadsheet
