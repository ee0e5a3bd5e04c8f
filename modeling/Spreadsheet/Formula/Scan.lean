import Spreadsheet.Decimal.Reading
import Spreadsheet.Formula.Token
import Spreadsheet.Reference.Spelling

/-!
# Cutting a formula into tokens

Blanks separate tokens and mean nothing else. A run of letters is a function's name only if an
opening parenthesis follows at once; otherwise it is one of the two booleans or the beginning of
a reference. A text has no escapes: it ends at the next quote.

The stream of tokens ends where the text does, or at the first character that begins no token.
That character is reported once, and everything behind it is dropped. Every token but the end of
the text takes at least one character, which is why the stream is finite.
-/

namespace Spreadsheet

namespace Token

/-- The token that a character is on its own, whatever follows it. -/
def single? : Char → Option Token
  | '+' => some (operator .add)
  | '-' => some (operator .subtract)
  | '*' => some (operator .multiply)
  | '/' => some (operator .divide)
  | '^' => some (operator .power)
  | '=' => some (operator .equal)
  | ':' => some colon
  | ',' => some comma
  | '(' => some leftParen
  | ')' => some rightParen
  | _ => none

/-- The operator that begins with a less sign, and what is left. -/
def scanLess : List Char → Token × List Char
  | '=' :: rest => (operator .lessEqual, rest)
  | '>' :: rest => (operator .notEqual, rest)
  | rest => (operator .less, rest)

/-- The operator that begins with a greater sign, and what is left. -/
def scanGreater : List Char → Token × List Char
  | '=' :: rest => (operator .greaterEqual, rest)
  | rest => (operator .greater, rest)

/-- A text, up to the next quote. There is no way to write a quote inside it. -/
def scanText (cs : List Char) : Token × List Char :=
  match cs.dropWhile (· != '"') with
  | _ :: rest => (text (String.ofList (cs.takeWhile (· != '"'))), rest)
  | [] => (stop '"', [])

/-- A number: digits, and a point with more digits or none behind it. -/
def scanNumber (cs : List Char) : Token × List Char :=
  let whole := cs.takeWhile Char.isDigit
  match cs.dropWhile Char.isDigit with
  | '.' :: rest =>
    (number (Decimal.ofDigits whole (rest.takeWhile Char.isDigit) 0), rest.dropWhile Char.isDigit)
  | rest => (number (Decimal.ofDigits whole [] 0), rest)

/-- What a run of letters is, given what follows it. -/
def ofLetters (letters rest : List Char) : Token :=
  if rest.head? = some '(' then function (String.ofList (Text.upper letters))
  else if Text.sameLetters letters "TRUE".toList then boolean true
  else if Text.sameLetters letters "FALSE".toList then boolean false
  else reference (String.ofList letters)

/-- A reference or a name. -/
def scanName (cs : List Char) : Token × List Char :=
  let (parts, rest) := Spelling.split cs
  (if parts.isName then ofLetters parts.letters rest else reference (String.ofList parts.chars),
    rest)

/-- The token of a lost reference, in any case, behind its hash sign. -/
def scanLost : List Char → Token × List Char
  | a :: b :: c :: d :: rest =>
    if ErrorCode.ofToken? ['#', a, b, c, d] = some .ref then (lost, rest) else (stop '#', [])
  | _ => (stop '#', [])

/-- Whether a number begins with this character, given what follows it. -/
def startsNumber (c : Char) (rest : List Char) : Bool :=
  c.isDigit || (c == '.' && rest.head?.any Char.isDigit)

/-- The token that begins with the character `c`, which is no blank, and what is left. -/
def scan (c : Char) (rest : List Char) : Token × List Char :=
  match single? c with
  | some token => (token, rest)
  | none =>
    if c = '<' then scanLess rest
    else if c = '>' then scanGreater rest
    else if c = '"' then scanText rest
    else if startsNumber c rest then scanNumber (c :: rest)
    else if c.isAlpha || c == '$' then scanName (c :: rest)
    else if c = '#' then scanLost rest
    else (stop c, [])

/-- The next token and what is left of the text. -/
def next (cs : List Char) : Token × List Char :=
  match Text.trimStart cs with
  | [] => (finish, [])
  | c :: rest => scan c rest

/-! ### Progress -/

theorem scanLess_suffix (cs : List Char) : (scanLess cs).2 <:+ cs := by
  unfold scanLess
  split <;> simp

theorem scanGreater_suffix (cs : List Char) : (scanGreater cs).2 <:+ cs := by
  unfold scanGreater
  split <;> simp

theorem scanText_suffix (cs : List Char) : (scanText cs).2 <:+ cs := by
  unfold scanText
  split
  · next rest h => exact (List.suffix_cons _ rest).trans (h ▸ List.dropWhile_suffix _)
  · exact List.nil_suffix

theorem scanLost_suffix (cs : List Char) : (scanLost cs).2 <:+ cs := by
  unfold scanLost
  split
  · next a b c d rest =>
    split
    · exact ⟨[a, b, c, d], rfl⟩
    · exact List.nil_suffix
  · exact List.nil_suffix

theorem scanNumber_suffix (c : Char) (rest : List Char) (h : startsNumber c rest) :
    (scanNumber (c :: rest)).2 <:+ rest := by
  unfold scanNumber
  by_cases hc : c.isDigit
  · simp only [hc, List.dropWhile_cons_of_pos]
    split
    · next behind e =>
      exact ((List.dropWhile_suffix _).trans (List.suffix_cons '.' behind)).trans
        (e ▸ List.dropWhile_suffix _)
    · exact List.dropWhile_suffix _
  · have hp : c = '.' := by simp_all [startsNumber]
    subst hp
    exact List.dropWhile_suffix _

theorem scanName_suffix (c : Char) (rest : List Char) (h : c.isAlpha || c == '$') :
    (scanName (c :: rest)).2 <:+ rest := by
  have drop (cs : List Char) : (Spelling.takeMarker cs).2 <:+ cs :=
    ⟨_, Spelling.marker_append_takeMarker cs⟩
  refine (List.dropWhile_suffix _).trans ((drop _).trans ?_)
  show (Spelling.takeMarker (c :: rest)).2.dropWhile Char.isAlpha <:+ rest
  by_cases hd : c = '$'
  · subst hd
    exact List.dropWhile_suffix _
  · have ha : c.isAlpha := by simpa [hd] using h
    have : (Spelling.takeMarker (c :: rest)).2 = c :: rest := by
      unfold Spelling.takeMarker
      split <;> simp_all
    rw [this, List.dropWhile_cons_of_pos ha]
    exact List.dropWhile_suffix _

/-- A scan leaves an end of the text behind the character that it began with. -/
theorem scan_suffix (c : Char) (rest : List Char) : (scan c rest).2 <:+ rest := by
  unfold scan
  split
  · exact List.suffix_refl _
  · split
    · exact scanLess_suffix _
    split
    · exact scanGreater_suffix _
    split
    · exact scanText_suffix _
    split
    · next h => exact scanNumber_suffix c rest h
    split
    · next h => exact scanName_suffix c rest h
    split
    · exact scanLost_suffix _
    · exact List.nil_suffix

/-- What is left of a text is an end of it. -/
theorem next_suffix (cs : List Char) : (next cs).2 <:+ cs := by
  unfold next
  split
  · exact List.nil_suffix
  · next c rest h =>
    refine (scan_suffix c rest).trans ((List.suffix_cons c rest).trans ?_)
    exact h ▸ List.dropWhile_suffix _

/-- Every token but the end of the text takes at least one character. -/
theorem next_length_lt (cs : List Char) (h : (next cs).1 ≠ finish) :
    (next cs).2.length < cs.length := by
  unfold next at h ⊢
  split
  · next e => simp [e] at h
  · next c rest e =>
    have := (scan_suffix c rest).length_le
    have := Text.length_trimStart_le cs
    simp only [e, List.length_cons] at this
    omega

end Token

namespace Formula

/-- The tokens of a text, up to and including the end of the stream. -/
def tokens (cs : List Char) : List Token :=
  let found := Token.next cs
  if _h : found.1.isEnd then [found.1] else found.1 :: tokens found.2
termination_by cs.length
decreasing_by exact Token.next_length_lt cs fun e => _h (by simp [found, e, Token.isEnd])

/-- The text of a formula as the tokens see it: trimmed, and without one equals sign in front. -/
def body (cs : List Char) : List Char :=
  match Text.trim cs with
  | '=' :: rest => rest
  | trimmed => trimmed

/-- The tokens of a formula. -/
def tokenize (text : String) : List Token :=
  tokens (body text.toList)

end Formula

end Spreadsheet
