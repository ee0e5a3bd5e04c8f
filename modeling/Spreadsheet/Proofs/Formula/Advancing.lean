import Spreadsheet.Proofs.Formula.Scanning

/-!
# How far each scanner moves

A position can be counted without looking at what is left of a text: each scanner moves on by a
number of bytes of its own. Over a sign, an operator, a name or a reference these are the sizes of
their characters, over a text the bytes up to the next quote and the two quotes, over a number its
digits and its point, and over a lost reference always five. Where nothing can be scanned, the
position jumps to the end of the text.

The sum of these moves, and of the blanks in front of tokens, is the position.
-/

namespace Spreadsheet

namespace Token

open Text

variable {c : Char} {cs : List Char}

/-- The bytes behind the sign of an operator that begins with `<`. -/
def lessAdvance : List Char → Nat
  | '=' :: _ => '='.utf8Size
  | '>' :: _ => '>'.utf8Size
  | _ => 0

/-- The bytes behind the sign of an operator that begins with `>`. -/
def greaterAdvance : List Char → Nat
  | '=' :: _ => '='.utf8Size
  | _ => 0

/-- The bytes of a text behind its first quote: those in front of the next quote, and the quote. If
there is none, all bytes that are left. -/
def textAdvance (cs : List Char) : Nat :=
  if '"' ∈ cs then byteSize (cs.takeWhile (· != '"')) + '"'.utf8Size else byteSize cs

/-- The bytes of a number: those of its digits, and of a point and the digits behind it. -/
def numberAdvance (cs : List Char) : Nat :=
  byteSize (cs.takeWhile Char.isDigit) +
    match cs.dropWhile Char.isDigit with
    | '.' :: rest => '.'.utf8Size + byteSize (rest.takeWhile Char.isDigit)
    | _ => 0

/-- The bytes of a name or a reference. -/
def nameAdvance (cs : List Char) : Nat :=
  byteSize (Spelling.split cs).1.chars

/-- The bytes of a lost reference, given what stands behind its sign; if there is no lost reference,
all bytes that are left. -/
def lostAdvance : List Char → Nat
  | a :: b :: c :: d :: rest =>
    if ErrorCode.ofToken? ['#', a, b, c, d] = some .ref then 5
    else byteSize ('#' :: a :: b :: c :: d :: rest)
  | cs => byteSize ('#' :: cs)

/-- How many bytes a scan moves on that begins with the character `c`, which is no blank. -/
def advance (c : Char) (rest : List Char) : Nat :=
  match single? c with
  | some _ => c.utf8Size
  | none =>
    if c = '<' then c.utf8Size + lessAdvance rest
    else if c = '>' then c.utf8Size + greaterAdvance rest
    else if c = '"' then c.utf8Size + textAdvance rest
    else if startsNumber c rest then numberAdvance (c :: rest)
    else if c.isAlpha || c == '$' then nameAdvance (c :: rest)
    else if c = '#' then lostAdvance rest
    else byteSize (c :: rest)

/-! ### Each scanner -/

theorem byteSize_scanLess (cs : List Char) :
    byteSize cs = lessAdvance cs + byteSize (scanLess cs).2 := by
  unfold scanLess lessAdvance
  split <;> simp

theorem byteSize_scanGreater (cs : List Char) :
    byteSize cs = greaterAdvance cs + byteSize (scanGreater cs).2 := by
  unfold scanGreater greaterAdvance
  split <;> simp

theorem byteSize_scanText (cs : List Char) :
    byteSize cs = textAdvance cs + byteSize (scanText cs).2 := by
  have whole : cs.takeWhile (· != '"') ++ cs.dropWhile (· != '"') = cs :=
    List.takeWhile_append_dropWhile
  unfold scanText textAdvance
  cases behind : cs.dropWhile (· != '"') with
  | nil =>
      have unclosed : '"' ∉ cs := fun quote => by
        simpa using List.dropWhile_eq_nil_iff.mp behind '"' quote
      rw [if_neg unclosed]
      rfl
  | cons d rest =>
      rw [behind, Piece.eq_quote_of_dropWhile behind] at whole
      have closed : '"' ∈ cs := by
        rw [← whole]
        exact List.mem_append_right _ List.mem_cons_self
      rw [if_pos closed]
      calc byteSize cs
          = byteSize (cs.takeWhile (· != '"') ++ '"' :: rest) := by rw [whole]
        _ = byteSize (cs.takeWhile (· != '"')) + '"'.utf8Size + byteSize rest := by
            rw [byteSize_append, byteSize_cons, Nat.add_assoc]

theorem byteSize_scanNumber (cs : List Char) :
    byteSize cs = numberAdvance cs + byteSize (scanNumber cs).2 := by
  have whole (cs : List Char) :
      byteSize cs =
        byteSize (cs.takeWhile Char.isDigit) + byteSize (cs.dropWhile Char.isDigit) := by
    rw [← byteSize_append, List.takeWhile_append_dropWhile]
  rw [whole, numberAdvance, scanNumber, Nat.add_assoc]
  congr 1
  cases cs.dropWhile Char.isDigit with
  | nil => rfl
  | cons c rest =>
      by_cases point : c = '.'
      · subst point
        rw [byteSize_cons, whole rest]
        exact (Nat.add_assoc _ _ _).symm
      · simp [point]

theorem byteSize_scanName (cs : List Char) :
    byteSize cs = nameAdvance cs + byteSize (scanName cs).2 := by
  have whole := Spelling.chars_append_split cs
  calc byteSize cs
      = byteSize ((Spelling.split cs).1.chars ++ (Spelling.split cs).2) := by rw [whole]
    _ = nameAdvance cs + byteSize (scanName cs).2 := byteSize_append _ _

theorem byteSize_scanLost (cs : List Char) :
    byteSize ('#' :: cs) = lostAdvance cs + byteSize (scanLost cs).2 := by
  unfold lostAdvance
  split
  · next a b c d rest =>
      split
      · next isRef =>
          have scanned : scanLost (a :: b :: c :: d :: rest) = (.lost, rest) := if_pos isRef
          obtain ⟨l, whole, five⟩ := scanLost_eq scanned
          rw [scanned, whole, byteSize_append, five]
      · next other =>
          have scanned : scanLost (a :: b :: c :: d :: rest) = (.stop '#', []) := if_neg other
          rw [scanned, byteSize_nil, Nat.add_zero]
  · next short =>
      rw [scanLost.eq_2 cs short, byteSize_nil, Nat.add_zero]

/-- A scan moves over what it does not leave. -/
theorem byteSize_scan (c : Char) (rest : List Char) :
    byteSize (c :: rest) = advance c rest + byteSize (scan c rest).2 := by
  unfold scan advance
  cases single? c with
  | some token => exact byteSize_cons c rest
  | none =>
      dsimp only
      split
      · rw [byteSize_cons, byteSize_scanLess, Nat.add_assoc]
      split
      · rw [byteSize_cons, byteSize_scanGreater, Nat.add_assoc]
      split
      · rw [byteSize_cons, byteSize_scanText, Nat.add_assoc]
      split
      · exact byteSize_scanNumber (c :: rest)
      split
      · exact byteSize_scanName (c :: rest)
      split
      · next sign => exact sign ▸ byteSize_scanLost rest
      · rfl

end Token

namespace Formula

open Text

variable {cs : List Char} {n : Nat}

/-- How many bytes are moved on when a token is asked for: those of the blanks in front of it and
those of its scanner. -/
def advance (cs : List Char) : Nat :=
  byteSize (cs.takeWhile isBlank) +
    match trimStart cs with
    | [] => 0
    | c :: rest => Token.advance c rest

/-- How many bytes have been moved on after so many tokens. -/
def moved (cs : List Char) : Nat → Nat
  | 0 => 0
  | n + 1 => moved cs n + advance (restAfter cs n)

theorem byteSize_next (cs : List Char) :
    byteSize cs = advance cs + byteSize (Token.next cs).2 := by
  have whole : byteSize cs = byteSize (cs.takeWhile isBlank) + byteSize (trimStart cs) := by
    rw [trimStart, ← byteSize_append, List.takeWhile_append_dropWhile]
  rw [whole, advance, Token.next, Nat.add_assoc]
  cases trimStart cs with
  | nil => rfl
  | cons c rest => rw [Token.byteSize_scan]

/-- What has been moved over and what is left are the whole text. -/
theorem moved_add_byteSize (cs : List Char) (n : Nat) :
    moved cs n + byteSize (restAfter cs n) = byteSize cs := by
  induction n with
  | zero => exact Nat.zero_add _
  | succ n ih =>
      rw [← ih, byteSize_next (restAfter cs n), moved, Nat.add_assoc]
      rfl

/-- The position is where the scanners have moved to, each by its own count of bytes. -/
theorem position_eq_moved (cs : List Char) (n : Nat) : position cs n = ⟨moved cs n⟩ := by
  rw [position, ← moved_add_byteSize cs n, Nat.add_sub_cancel]

end Formula

end Spreadsheet
