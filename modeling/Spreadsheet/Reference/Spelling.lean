/-!
# The parts of a written reference

A written reference has four parts: a dollar sign or none, letters, a dollar sign or none, and
digits. Text is split into them from the front; each part takes as much as it can, and any part
may come out empty. The same split serves to read a reference, to find the references of a
formula and to cut a formula into tokens, so these three agree on where a reference ends.
-/

namespace Spreadsheet

/-- The four parts of a written reference. -/
structure Spelling where
  colFixed : Bool
  letters : List Char
  rowFixed : Bool
  digits : List Char
deriving DecidableEq, Repr

namespace Spelling

/-- The dollar sign of a fixed axis. -/
def marker (fixed : Bool) : List Char :=
  if fixed then ['$'] else []

/-- Takes a dollar sign off the front, if there is one. -/
def takeMarker : List Char → Bool × List Char
  | '$' :: cs => (true, cs)
  | cs => (false, cs)

/-- The parts put together again. -/
def chars (s : Spelling) : List Char :=
  marker s.colFixed ++ (s.letters ++ (marker s.rowFixed ++ s.digits))

/-- The parts at the front of a text, and what is left of it. -/
def split (cs : List Char) : Spelling × List Char :=
  let (colFixed, named) := takeMarker cs
  let (rowFixed, numbered) := takeMarker (named.dropWhile Char.isAlpha)
  (⟨colFixed, named.takeWhile Char.isAlpha, rowFixed, numbered.takeWhile Char.isDigit⟩,
    numbered.dropWhile Char.isDigit)

/-- Whether there are letters and digits, as a reference needs. -/
def isComplete (s : Spelling) : Bool :=
  !s.letters.isEmpty && !s.digits.isEmpty

/-- Whether there are letters only, as a name needs. -/
def isName (s : Spelling) : Bool :=
  !s.colFixed && !s.rowFixed && s.digits.isEmpty

theorem marker_append_takeMarker (cs : List Char) :
    marker (takeMarker cs).1 ++ (takeMarker cs).2 = cs := by
  unfold takeMarker
  split <;> rfl

/-- Splitting loses nothing. -/
theorem chars_append_split (cs : List Char) : (split cs).1.chars ++ (split cs).2 = cs := by
  simp only [split, chars, List.append_assoc, List.takeWhile_append_dropWhile,
    marker_append_takeMarker]

end Spelling

end Spreadsheet
