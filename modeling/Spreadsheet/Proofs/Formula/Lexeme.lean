import Spreadsheet.Formula.Scan
import Spreadsheet.Proofs.Formula.Pieces

/-!
# Lexemes

The characters of a token make the same token in front of any other text, as long as that text
begins in the same way: a number does not go on with a digit, a name does not go on with a letter,
and so on. The lexeme of a token also has pieces of its own. Only a reference may share its piece
with what follows, namely with the other end of a range.
-/

namespace Spreadsheet

/-- Whether `ds` goes on with nothing that a token could take and that `cs` does not go on with. -/
structure SameEdge (cs ds : List Char) : Prop where
  digit : (∀ c ∈ cs.head?, ¬ c.isDigit) → ∀ d ∈ ds.head?, ¬ d.isDigit
  name : (∀ c ∈ cs.head?, ¬ (c.isAlpha || c == '$')) →
    ∀ d ∈ ds.head?, ¬ (d.isAlpha || d == '$')
  sign : ∀ c ∈ ['.', '=', '>', '('], cs.head? ≠ some c → ds.head? ≠ some c

/-- Whether `ds` begins like `cs`, as far as a token in front of them can tell. -/
structure SameStart (cs ds : List Char) : Prop extends SameEdge cs ds where
  call : cs.head? = some '(' → ds.head? = some '('

/-- The characters `l` of a token `t` in front of `rest`. -/
structure Lexeme (t : Token) (l rest : List Char) : Prop where
  next : ∀ rest', SameStart rest rest' → Token.next (l ++ rest') = (t, rest')
  /-- Only a function's name needs its parenthesis behind it. -/
  apart : (∀ name, t ≠ .function name) → ∀ rest', SameEdge rest rest' →
    Token.next (l ++ rest') = (t, rest')
  quotes : l.count '"' % 2 = 0
  plain : t ≠ .colon → (∀ w, t ≠ .reference w) → ∃ ps : List Piece, ps ≠ [] ∧
    (∀ p ∈ ps, p.isPlain) ∧ Formula.pieces (l ++ rest) = ps ++ Formula.pieces rest
  colon : t = .colon → l = [':']
  reference : ∀ w, t = .reference w → ∃ s : Spelling, w = String.ofList s.chars ∧ l = s.chars ∧
    s.EndsBefore rest ∧ (s.letters = [] → s.colFixed = true)

theorem SameStart.of_head_eq {cs ds : List Char} (h : cs.head? = ds.head?) : SameStart cs ds where
  digit := h ▸ id
  name := h ▸ id
  sign _ _ := h ▸ id
  call := h ▸ id

theorem SameStart.refl (cs : List Char) : SameStart cs cs :=
  .of_head_eq rfl

/-- A name or a reference in the text behind a token may become another one, or a lost one. -/
theorem SameStart.of_name {c d : Char} {cs ds : List Char} (name : c.isAlpha || c == '$')
    (kind : (d.isAlpha || d == '$') ∨ d = '#') : SameStart (c :: cs) (d :: ds) where
  digit _ e he := by
    cases he
    rcases kind with name | rfl
    · intro digit
      rw [(Formula.sign_of_isDigit digit).2] at name
      cases name
    · decide
  name none := absurd name (none c rfl)
  sign e he _ same := by
    cases same
    have signs : ∀ e ∈ ['.', '=', '>', '('], (e.isAlpha || e == '$') = false ∧ e ≠ '#' := by simp
    rcases kind with name | rfl
    · rw [(signs d he).1] at name
      cases name
    · exact (signs _ he).2 rfl
  call same := by
    cases same
    cases name

/-- The parts of a reference end where they did if the text goes on in the same way. -/
theorem Spelling.EndsBefore.of_sameEdge {s : Spelling} {rest rest' : List Char}
    (h : s.EndsBefore rest) (begins : s.letters = [] → s.colFixed = true)
    (same : SameEdge rest rest') : s.EndsBefore rest' := by
  -- Only parts without a row say anything about the text behind them.
  have bare : s.rowFixed = false → s.digits = [] →
      ∀ d ∈ rest'.head?, ¬ (d.isAlpha || d == '$') := by
    intro relative digits
    apply same.name
    intro c hc
    have row := h.row
    have number := h.number relative
    rw [relative, digits] at row
    rw [digits] at number
    have alpha : ¬ c.isAlpha := row c hc
    have marker : c ≠ '$' := by
      rintro rfl
      exact number hc
    simp [alpha, marker]
  refine ⟨h.letters, h.digits, ?_, ?_, ?_, same.digit h.boundary⟩
  · intro relative
    cases letters : s.letters with
    | nil =>
        rw [begins letters] at relative
        cases relative
    | cons c cs =>
        have column := h.column relative
        rw [letters] at column
        exact column
  · have row := h.row
    cases fixed : s.rowFixed with
    | true =>
        rw [fixed] at row
        exact row
    | false =>
        cases digits : s.digits with
        | nil =>
            intro c hc alpha
            exact bare fixed digits c hc (by simp [alpha])
        | cons d ds =>
            rw [fixed, digits] at row
            exact row
  · intro relative
    cases digits : s.digits with
    | nil =>
        intro marker
        exact bare relative digits '$' marker (by decide)
    | cons d ds =>
        have number := h.number relative
        rw [digits] at number
        exact number

namespace Token

open Formula

variable {c : Char} {t : Token} {cs rest : List Char}

theorem next_cons (h : ¬ Text.isBlank c) (cs : List Char) : Token.next (c :: cs) = scan c cs := by
  rw [Token.next, Text.trimStart_cons, if_neg h]

/-- A lexeme of signs and digits. -/
theorem lexeme_of_signs {l : List Char} (nonempty : l ≠ [])
    (signs : ∀ c ∈ l, c ≠ '"' ∧ (c.isAlpha || c == '$') = false ∧ (Piece.other c).isPlain)
    (live : t ≠ .colon) (noReference : ∀ w, t ≠ .reference w)
    (next : ∀ rest', SameEdge rest rest' → Token.next (l ++ rest') = (t, rest')) :
    Lexeme t l rest where
  next rest' same := next rest' same.toSameEdge
  apart _ := next
  quotes := by
    have none : '"' ∉ l := fun h => (signs _ h).1 rfl
    simp [List.count_eq_zero.mpr none]
  plain _ _ := by
    refine ⟨l.map .other, by simpa using nonempty, ?_, ?_⟩
    · intro p hp
      obtain ⟨c, hc, rfl⟩ := List.mem_map.mp hp
      exact (signs c hc).2.2
    · exact pieces_signs fun c hc => ⟨(signs c hc).1, (signs c hc).2.1⟩
  colon same := absurd same live
  reference w same := absurd same (noReference w)

theorem lexeme_single (h : single? c = some t) : Lexeme t [c] rest := by
  have notBlank : ¬ Text.isBlank c := by
    unfold single? at h
    split at h <;> first | decide | cases h
  have next (rest' : List Char) : Token.next ([c] ++ rest') = (t, rest') := by
    rw [List.singleton_append, next_cons notBlank, scan, h]
  by_cases colon : c = ':'
  · subst colon
    cases h
    exact
      { next := fun rest' _ => next rest'
        apart := fun _ rest' _ => next rest'
        quotes := by decide
        plain := fun live => absurd rfl live
        colon := fun _ => rfl
        reference := fun w same => by cases same }
  · refine lexeme_of_signs (by simp) ?_ ?_ ?_ fun rest' _ => next rest'
    · intro d hd
      cases List.mem_singleton.mp hd
      unfold single? at h
      split at h <;> first | decide | exact absurd rfl colon | cases h
    · rintro rfl
      unfold single? at h
      split at h <;> first | exact absurd rfl colon | cases h
    · rintro w rfl
      unfold single? at h
      split at h <;> cases h

/-- A lexeme of comparison signs. -/
theorem lexeme_comparison {op : BinaryOp} {l : List Char} (nonempty : l ≠ [])
    (comparison : ∀ c ∈ l, c ∈ ['<', '=', '>'])
    (next : ∀ rest', SameEdge rest rest' → Token.next (l ++ rest') = (operator op, rest')) :
    Lexeme (operator op) l rest := by
  have signs : ∀ c ∈ ['<', '=', '>'],
      c ≠ '"' ∧ (c.isAlpha || c == '$') = false ∧ (Piece.other c).isPlain := by
    simp [Piece.isPlain, Text.isBlank]
  exact lexeme_of_signs nonempty (fun c hc => signs c (comparison c hc)) (by simp) (by simp) next

theorem lexeme_less (h : scanLess cs = (t, rest)) :
    ∃ l, '<' :: cs = l ++ rest ∧ Lexeme t l rest := by
  unfold scanLess at h
  split at h
  · next behind =>
      cases h
      exact ⟨['<', '='], rfl, lexeme_comparison (by simp) (by simp) fun rest' _ => rfl⟩
  · next behind =>
      cases h
      exact ⟨['<', '>'], rfl, lexeme_comparison (by simp) (by simp) fun rest' _ => rfl⟩
  · next noEqual noGreater =>
      cases h
      refine ⟨['<'], rfl, lexeme_comparison (by simp) (by simp) ?_⟩
      intro rest' same
      have equal : rest'.head? ≠ some '=' :=
        same.sign '=' (by simp) fun head => (List.head?_eq_some_iff.mp head).elim noEqual
      have greater : rest'.head? ≠ some '>' :=
        same.sign '>' (by simp) fun head => (List.head?_eq_some_iff.mp head).elim noGreater
      show scanLess rest' = _
      unfold scanLess
      split
      · exact absurd rfl equal
      · exact absurd rfl greater
      · rfl

theorem lexeme_greater (h : scanGreater cs = (t, rest)) :
    ∃ l, '>' :: cs = l ++ rest ∧ Lexeme t l rest := by
  unfold scanGreater at h
  split at h
  · next behind =>
      cases h
      exact ⟨['>', '='], rfl, lexeme_comparison (by simp) (by simp) fun rest' _ => rfl⟩
  · next noEqual =>
      cases h
      refine ⟨['>'], rfl, lexeme_comparison (by simp) (by simp) ?_⟩
      intro rest' same
      have equal : rest'.head? ≠ some '=' :=
        same.sign '=' (by simp) fun head => (List.head?_eq_some_iff.mp head).elim noEqual
      show scanGreater rest' = _
      unfold scanGreater
      split
      · exact absurd rfl equal
      · rfl

theorem lexeme_text (h : scanText cs = (t, rest)) (live : t.isEnd = false) :
    ∃ l, '"' :: cs = l ++ rest ∧ Lexeme t l rest := by
  unfold scanText at h
  split at h
  · next closing behind e =>
      cases h
      have whole := List.takeWhile_append_dropWhile (p := (· != '"')) (l := cs)
      have quote : closing = '"' := by
        have head := List.head?_dropWhile_not (· != '"') cs
        rw [e] at head
        simpa using head
      rw [e, quote] at whole
      generalize e' : cs.takeWhile (· != '"') = inner at whole
      have inside : ∀ c ∈ inner, (c != '"') = true := by
        rw [← e']
        exact fun c hc => List.all_eq_true.mp List.all_takeWhile c hc
      have noQuote : '"' ∉ inner := fun mem => absurd (inside _ mem) (by decide)
      have next (rest' : List Char) : Token.next ('"' :: (inner ++ ['"']) ++ rest') =
          (text (String.ofList inner), rest') := by
        have cut : ∀ c ∈ ('"' :: rest').head?, ¬ (c != '"') = true := by simp
        obtain ⟨front, after⟩ := Text.span_append inside cut
        have text : '"' :: (inner ++ ['"']) ++ rest' = '"' :: (inner ++ '"' :: rest') := by simp
        rw [text]
        show scanText (inner ++ '"' :: rest') = _
        rw [scanText, after, front]
      refine ⟨'"' :: (inner ++ ['"']), by simp [← whole], fun rest' _ => next rest',
        fun _ rest' _ => next rest', ?_, ?_, ?_, ?_⟩
      · simp [List.count_eq_zero.mpr noQuote]
      · intro _ _
        refine ⟨[.quoted inner], by simp, by simp [Piece.isPlain], ?_⟩
        have text : '"' :: (inner ++ ['"']) ++ rest = '"' :: (inner ++ '"' :: rest) := by simp
        rw [text, pieces_quoted noQuote]
        rfl
      · intro same
        cases same
      · intro w same
        cases same
  · cases h
    cases live

theorem single?_of_isDigit (h : c.isDigit) : single? c = none := by
  unfold single?
  split <;> first | rfl | exact absurd h (by decide)

/-- A number is read from its first digit or its point. -/
theorem scan_number (h : startsNumber c cs) : scan c cs = scanNumber (c :: cs) := by
  have begins : c.isDigit ∨ c = '.' := by
    rcases Bool.or_eq_true_iff.mp h with digit | point
    · exact .inl digit
    · exact .inr (by simpa using (Bool.and_eq_true_iff.mp point).1)
  have single : single? c = none := by
    rcases begins with digit | rfl
    · exact single?_of_isDigit digit
    · rfl
  have distinct (d : Char) (noDigit : d.isDigit = false) (noPoint : d ≠ '.') : c ≠ d := by
    rintro rfl
    rcases begins with digit | rfl
    · rw [noDigit] at digit
      cases digit
    · exact noPoint rfl
  rw [scan, single]
  simp only [distinct '<' (by decide) (by decide), distinct '>' (by decide) (by decide),
    distinct '"' (by decide) (by decide), if_false, h, if_true]

theorem startsNumber_append {l rest' : List Char} (h : startsNumber c (l ++ rest))
    (boundary : ∀ c ∈ rest.head?, ¬ c.isDigit) : startsNumber c (l ++ rest') := by
  cases l with
  | cons d ds => exact h
  | nil =>
      rcases Bool.or_eq_true_iff.mp h with digit | point
      · simp [startsNumber, digit]
      · obtain ⟨d, head, digit⟩ := (Option.any_eq_true _ _).mp (Bool.and_eq_true_iff.mp point).2
        exact absurd digit (boundary d head)

theorem not_isBlank_of_startsNumber (h : startsNumber c cs) : ¬ Text.isBlank c := by
  rcases Bool.or_eq_true_iff.mp h with digit | point
  · exact Text.not_isBlank_of_isDigit digit
  · have same : c = '.' := by simpa using (Bool.and_eq_true_iff.mp point).1
    rw [same]
    decide

theorem isPlain_of_isDigit (h : c.isDigit) : (Piece.other c).isPlain := by
  have colon : c ≠ ':' := by
    rintro rfl
    exact absurd h (by decide)
  simp [Piece.isPlain, colon, Text.not_isBlank_of_isDigit h]

theorem isDigit_of_mem_takeWhile {l : List Char} : ∀ c ∈ l.takeWhile Char.isDigit, c.isDigit :=
  fun c hc => List.all_eq_true.mp List.all_takeWhile c hc

theorem not_isDigit_of_dropWhile {l : List Char} :
    ∀ c ∈ (l.dropWhile Char.isDigit).head?, ¬ c.isDigit := by
  intro c hc
  have stop := List.head?_dropWhile_not Char.isDigit l
  rw [hc] at stop
  simpa using stop

/-- The characters of a number are a lexeme if they are read to the same number wherever the text
goes on in the same way. -/
theorem lexeme_of_number {l : List Char} {n : Float} (begins : startsNumber c cs)
    (whole : c :: cs = l ++ rest) (nonempty : l ≠ []) (boundary : ∀ c ∈ rest.head?, ¬ c.isDigit)
    (chars : ∀ c ∈ l, c.isDigit ∨ c = '.')
    (scanned : ∀ rest', SameEdge rest rest' → scanNumber (l ++ rest') = (number n, rest')) :
    Lexeme (number n) l rest := by
  refine lexeme_of_signs nonempty ?_ (by simp) (by simp) ?_
  · intro d hd
    rcases chars d hd with digit | rfl
    · exact ⟨(sign_of_isDigit digit).1, (sign_of_isDigit digit).2, isPlain_of_isDigit digit⟩
    · decide
  · intro rest' same
    obtain ⟨d, l', rfl⟩ := List.exists_cons_of_ne_nil nonempty
    cases whole
    have begins' : startsNumber c (l' ++ rest') := startsNumber_append begins boundary
    rw [List.cons_append, next_cons (not_isBlank_of_startsNumber begins), scan_number begins']
    exact scanned rest' same

theorem scanNumber_fraction {front decimals : List Char} (digits : ∀ c ∈ front, c.isDigit)
    (fraction : ∀ c ∈ decimals, c.isDigit) (boundary : ∀ c ∈ rest.head?, ¬ c.isDigit) :
    scanNumber ((front ++ '.' :: decimals) ++ rest) =
      (number (Decimal.ofDigits front decimals 0), rest) := by
  have point : ∀ c ∈ ('.' :: (decimals ++ rest)).head?, ¬ c.isDigit := by simp
  obtain ⟨taken, dropped⟩ := Text.span_append digits point
  obtain ⟨taken', dropped'⟩ := Text.span_append fraction boundary
  rw [List.append_assoc, List.cons_append]
  simp only [scanNumber, taken, dropped, taken', dropped']

theorem scanNumber_whole {front : List Char} (digits : ∀ c ∈ front, c.isDigit)
    (boundary : ∀ c ∈ rest.head?, ¬ c.isDigit) (noPoint : rest.head? ≠ some '.') :
    scanNumber (front ++ rest) = (number (Decimal.ofDigits front [] 0), rest) := by
  obtain ⟨taken, dropped⟩ := Text.span_append digits boundary
  unfold scanNumber
  simp only [taken, dropped]
  split
  · exact absurd rfl noPoint
  · rfl

/-- What a number is made of: digits with a point behind them or in front of more of them, and at
least one digit in all. -/
theorem scanNumber_cases (begins : startsNumber c cs) (h : scanNumber (c :: cs) = (t, rest)) :
    (∀ c ∈ rest.head?, ¬ c.isDigit) ∧ ∃ front : List Char, (∀ c ∈ front, c.isDigit) ∧
      ((∃ decimals : List Char, (∀ c ∈ decimals, c.isDigit) ∧ (front ≠ [] ∨ decimals ≠ []) ∧
          c :: cs = (front ++ '.' :: decimals) ++ rest ∧
          t = number (Decimal.ofDigits front decimals 0)) ∨
        (front ≠ [] ∧ rest.head? ≠ some '.' ∧ c :: cs = front ++ rest ∧
          t = number (Decimal.ofDigits front [] 0))) := by
  have whole := List.takeWhile_append_dropWhile (p := Char.isDigit) (l := c :: cs)
  have digits := isDigit_of_mem_takeWhile (l := c :: cs)
  have stop := not_isDigit_of_dropWhile (l := c :: cs)
  unfold scanNumber at h
  dsimp only at h
  generalize (c :: cs).takeWhile Char.isDigit = front at *
  generalize (c :: cs).dropWhile Char.isDigit = behind at *
  split at h
  · next after =>
      cases h
      have fraction := isDigit_of_mem_takeWhile (l := after)
      have cut := List.takeWhile_append_dropWhile (p := Char.isDigit) (l := after)
      have boundary := not_isDigit_of_dropWhile (l := after)
      refine ⟨boundary, front, digits, .inl ⟨_, fraction, ?_, ?_, rfl⟩⟩
      · -- A point that begins a number has a digit behind it.
        refine Decidable.or_iff_not_imp_left.mpr fun none => ?_
        cases not_not.mp none
        cases whole
        obtain ⟨d, after, rfl, digit⟩ : ∃ d rest, cs = d :: rest ∧ d.isDigit := by
          cases cs with
          | nil => cases begins
          | cons d rest => exact ⟨d, rest, rfl, by simpa [startsNumber] using begins⟩
        simp [digit]
      · rw [List.append_assoc, List.cons_append, cut, whole]
  · next noPoint =>
      cases h
      refine ⟨stop, front, digits, .inr ⟨?_, ?_, whole.symm, rfl⟩⟩
      · rintro rfl
        rw [List.nil_append] at whole
        rw [whole] at stop noPoint
        rcases Bool.or_eq_true_iff.mp begins with digit | point
        · exact stop c rfl digit
        · have same : c = '.' := by simpa using (Bool.and_eq_true_iff.mp point).1
          exact noPoint cs (by rw [same])
      · exact fun head => (List.head?_eq_some_iff.mp head).elim noPoint

theorem lexeme_number (begins : startsNumber c cs) (h : scanNumber (c :: cs) = (t, rest)) :
    ∃ l, c :: cs = l ++ rest ∧ Lexeme t l rest := by
  obtain ⟨boundary, front, digits, ⟨decimals, fraction, -, text, rfl⟩ |
    ⟨nonempty, noPoint, text, rfl⟩⟩ := scanNumber_cases begins h
  · refine ⟨_, text, lexeme_of_number begins text (by simp) boundary ?_ fun rest' same =>
      scanNumber_fraction digits fraction (same.digit boundary)⟩
    intro d hd
    rcases List.mem_append.mp hd with hd | hd
    · exact .inl (digits d hd)
    rcases List.mem_cons.mp hd with rfl | hd
    · exact .inr rfl
    · exact .inl (fraction d hd)
  · exact ⟨front, text, lexeme_of_number begins text nonempty boundary
      (fun c hc => .inl (digits c hc)) fun rest' same =>
        scanNumber_whole digits (same.digit boundary) (same.sign '.' (by simp) noPoint)⟩

/-- A name or a reference is read from its first letter or dollar sign. -/
theorem scan_name (h : c.isAlpha || c == '$') (cs : List Char) :
    scan c cs = scanName (c :: cs) := by
  have distinct (d : Char) (other : (d.isAlpha || d == '$') = false) : c ≠ d := by
    rintro rfl
    rw [other] at h
    cases h
  have single : single? c = none := by
    unfold single?
    split <;> first | rfl | exact absurd h (by decide)
  have noNumber : startsNumber c cs = false := by
    have digit : c.isDigit = false := by
      cases digit : c.isDigit with
      | false => rfl
      | true => exact absurd h (by simp [(sign_of_isDigit digit).2])
    simp [startsNumber, digit, distinct '.' (by decide)]
  rw [scan, single]
  simp [distinct '<' (by decide), distinct '>' (by decide), distinct '"' (by decide), noNumber, h]

theorem not_isBlank_of_name (h : c.isAlpha || c == '$') : ¬ Text.isBlank c := by
  rcases Bool.or_eq_true_iff.mp h with alpha | marker
  · exact Text.not_isBlank_of_isAlpha alpha
  · rw [beq_iff_eq.mp marker]
    decide

/-- What a run of letters is depends on the text behind it only through a parenthesis. -/
theorem ofLetters_sameStart {letters rest' : List Char} (same : SameStart rest rest') :
    ofLetters letters rest' = ofLetters letters rest := by
  have paren : rest'.head? = some '(' ↔ rest.head? = some '(' := by
    constructor
    · intro h
      exact Decidable.byContradiction fun other => same.sign '(' (by simp) other h
    · exact same.call
  simp only [ofLetters, paren]

/-- A run of letters that is no function's name has no parenthesis behind it. -/
theorem ofLetters_sameEdge {letters rest' : List Char} (same : SameEdge rest rest')
    (noCall : ∀ name, ofLetters letters rest ≠ .function name) :
    ofLetters letters rest' = ofLetters letters rest := by
  refine ofLetters_sameStart ⟨same, fun paren => ?_⟩
  exact absurd (if_pos paren) (noCall _)

theorem ofLetters_eq_reference {letters : List Char} {w : String}
    (h : ofLetters letters rest = .reference w) : w = String.ofList letters := by
  unfold ofLetters at h
  split at h
  · cases h
  split at h
  · cases h
  split at h
  · cases h
  · cases h
    rfl

theorem ofLetters_ne_colon (letters rest : List Char) : ofLetters letters rest ≠ .colon := by
  unfold ofLetters
  split
  · simp
  split
  · simp
  split <;> simp

theorem isPlain_of_isAlpha (h : c.isAlpha) : (Piece.other c).isPlain := by
  have colon : c ≠ ':' := by
    rintro rfl
    exact absurd h (by decide)
  simp [Piece.isPlain, colon, Text.not_isBlank_of_isAlpha h]

/-- A spelling that begins with a letter or a dollar sign has a character. -/
theorem chars_ne_nil_of_colFixed {s : Spelling} (first : s.letters = [] → s.colFixed = true) :
    s.chars ≠ [] := by
  intro empty
  obtain ⟨noMarker, noLetters, -⟩ : Spelling.marker s.colFixed = [] ∧ s.letters = [] ∧ _ := by
    simpa [Spelling.chars] using empty
  rw [first noLetters] at noMarker
  cases noMarker

/-- A name is all letters. -/
theorem chars_of_isName {s : Spelling} (isName : s.isName) :
    s.chars = s.letters ∧ s.rowFixed = false ∧ s.digits = [] := by
  obtain ⟨⟨col, row⟩, digits⟩ : (s.colFixed = false ∧ s.rowFixed = false) ∧ s.digits = [] := by
    simpa [Spelling.isName] using isName
  exact ⟨by simp [Spelling.chars, Spelling.marker, col, row, digits], row, digits⟩

/-- The pieces of a name are its letters. -/
theorem pieces_name {s : Spelling} (parts : s.EndsBefore rest) (isName : s.isName) :
    (∀ p ∈ s.chars.map Piece.other, p.isPlain) ∧
      pieces (s.chars ++ rest) = s.chars.map .other ++ pieces rest := by
  obtain ⟨chars, row, digits⟩ := chars_of_isName isName
  have alpha := parts.row
  have marker := parts.number row
  rw [row, digits] at alpha
  rw [digits] at marker
  rw [chars]
  refine ⟨?_, pieces_letters parts.letters alpha marker parts.boundary⟩
  intro p hp
  obtain ⟨d, hd, rfl⟩ := List.mem_map.mp hp
  exact isPlain_of_isAlpha (parts.letters d hd)

theorem lexeme_name (begins : c.isAlpha || c == '$') (h : scanName (c :: cs) = (t, rest)) :
    ∃ l, c :: cs = l ++ rest ∧ Lexeme t l rest := by
  have parts := Spelling.endsBefore_split (c :: cs)
  have first := Spelling.colFixed_split begins cs
  have whole := Spelling.chars_append_split (c :: cs)
  unfold scanName at h
  dsimp only at h
  generalize (Spelling.split (c :: cs)).1 = s at *
  obtain ⟨ht, rfl⟩ := Prod.mk.inj h
  generalize (Spelling.split (c :: cs)).2 = rest at *
  have nonempty := chars_ne_nil_of_colFixed first
  have reads (rest' : List Char) (same : SameEdge rest rest')
      (kind : s.isName → ofLetters s.letters rest' = ofLetters s.letters rest) :
      Token.next (s.chars ++ rest') = (t, rest') := by
    obtain ⟨d, l, split⟩ := List.exists_cons_of_ne_nil nonempty
    rw [split] at whole
    cases whole
    have cut := (parts.of_sameEdge first same).split_append
    rw [split] at cut ⊢
    rw [List.cons_append] at cut ⊢
    rw [next_cons (not_isBlank_of_name begins), scan_name begins, scanName, cut, ← ht]
    dsimp only
    split
    · next isName => rw [kind isName]
    · rw [split]
  refine ⟨s.chars, whole.symm, ?_, ?_, ?_, ?_, ?_, ?_⟩
  · exact fun rest' same => reads rest' same.toSameEdge fun _ => ofLetters_sameStart same
  · intro noCall rest' same
    refine reads rest' same fun isName => ofLetters_sameEdge same ?_
    rwa [← ht, if_pos isName] at noCall
  · have noQuote : '"' ∉ s.chars :=
      fun mem => (Spelling.of_mem_chars parts.letters parts.digits mem).2 rfl
    simp [List.count_eq_zero.mpr noQuote]
  · intro _ noReference
    by_cases isName : s.isName
    · obtain ⟨plain, cut⟩ := pieces_name parts isName
      exact ⟨s.chars.map .other, by simpa using nonempty, plain, cut⟩
    · rw [if_neg isName] at ht
      exact absurd ht.symm (noReference _)
  · rintro rfl
    split at ht
    · exact absurd ht (ofLetters_ne_colon _ _)
    · cases ht
  · rintro w rfl
    refine ⟨s, ?_, rfl, parts, first⟩
    split at ht
    · next isName => rw [ofLetters_eq_reference ht, (chars_of_isName isName).1]
    · cases ht
      rfl

/-- The token of a lost reference has letters behind its hash sign, and then an exclamation
mark. -/
theorem lost_letters {a b c d : Char} (h : ErrorCode.ofToken? ['#', a, b, c, d] = some .ref) :
    (∀ l ∈ [a, b, c], l.isAlpha) ∧ d = '!' := by
  unfold ErrorCode.ofToken? at h
  split at h
  · next rest same =>
      cases same
      split at h
      · next mark =>
          have code : ErrorCode.all.find? (fun code =>
              Text.sameLetters code.name.toList [a, b, c]) = some .ref := h
          have found := List.find?_some code
          have upper : ['R', 'E', 'F'] = [a.toUpper, b.toUpper, c.toUpper] := by
            simpa [ErrorCode.name, Text.sameLetters, Text.upper] using found
          refine ⟨?_, Option.some.inj mark⟩
          intro l hl
          apply Text.isAlpha_of_toUpper
          have mem : l.toUpper ∈ ['R', 'E', 'F'] := by
            rw [upper]
            exact List.mem_map_of_mem hl
          have alpha : ∀ u ∈ ['R', 'E', 'F'], u.isAlpha := by simp
          exact alpha _ mem
      · cases h
  · cases h

theorem lexeme_lost (h : scanLost cs = (t, rest)) (live : t.isEnd = false) :
    ∃ l, '#' :: cs = l ++ rest ∧ Lexeme t l rest := by
  unfold scanLost at h
  split at h
  · next a b c d behind =>
      split at h
      · next isRef =>
          cases h
          obtain ⟨letters, rfl⟩ := lost_letters isRef
          have next (rest' : List Char) :
              Token.next (['#', a, b, c, '!'] ++ rest') = (lost, rest') := by
            show scanLost (a :: b :: c :: '!' :: rest') = _
            rw [scanLost, if_pos isRef]
          have cut : pieces ([a, b, c] ++ '!' :: rest) =
              [a, b, c].map .other ++ pieces ('!' :: rest) :=
            pieces_letters letters (by simp) (by simp) (by simp)
          refine ⟨['#', a, b, c, '!'], rfl, fun rest' _ => next rest', fun _ rest' _ => next rest',
            ?_, ?_, ?_, ?_⟩
          · have noQuote : '"' ∉ ['#', a, b, c, '!'] := by
              intro mem
              have mem : '"' ∈ [a, b, c] := by simpa using mem
              exact absurd (letters _ mem) (by decide)
            rw [List.count_eq_zero.mpr noQuote]
          · intro _ _
            refine ⟨['#', a, b, c, '!'].map .other, by simp, ?_, ?_⟩
            · intro p hp
              obtain ⟨l, hl, rfl⟩ := List.mem_map.mp hp
              rcases List.mem_cons.mp hl with rfl | hl
              · decide
              rcases List.mem_append.mp (show l ∈ [a, b, c] ++ ['!'] from hl) with hl | hl
              · exact isPlain_of_isAlpha (letters l hl)
              · cases List.mem_singleton.mp hl
                decide
            · show pieces ('#' :: ([a, b, c] ++ '!' :: rest)) = _
              rw [pieces_sign (by decide) (by decide), cut, pieces_sign (by decide) (by decide)]
              rfl
          · intro same
            cases same
          · intro w same
            cases same
      · cases h
        cases live
  · cases h
    cases live

/-! ### The next token -/

/-- Everything that a scan can do. -/
theorem scan_cases {motive : Token × List Char → Prop}
    (single : ∀ t, single? c = some t → motive (t, cs))
    (less : c = '<' → motive (scanLess cs))
    (greater : c = '>' → motive (scanGreater cs))
    (text : c = '"' → motive (scanText cs))
    (number : startsNumber c cs → motive (scanNumber (c :: cs)))
    (name : c.isAlpha || c == '$' → motive (scanName (c :: cs)))
    (lost : c = '#' → motive (scanLost cs))
    (stray : motive (stop c, [])) : motive (scan c cs) := by
  unfold scan
  split
  · next found => exact single _ found
  split
  · next sign => exact less sign
  split
  · next sign => exact greater sign
  split
  · next quote => exact text quote
  split
  · next begins => exact number begins
  split
  · next begins => exact name begins
  split
  · next sign => exact lost sign
  · exact stray

/-- What the next token is scanned from, behind blanks. -/
theorem exists_scan (h : Token.next cs = (t, rest)) (live : t.isEnd = false) :
    ∃ front c behind, cs = front ++ c :: behind ∧ (∀ d ∈ front, Text.isBlank d) ∧
      scan c behind = (t, rest) := by
  obtain ⟨front, text, blanks⟩ := Text.exists_trimStart cs
  unfold Token.next at h
  split at h
  · cases h
    cases live
  · next c behind start => exact ⟨front, c, behind, by rw [← start]; exact text, blanks, h⟩

/-- The characters of the next token, which stand behind blanks and in front of what is left. -/
theorem exists_lexeme (h : Token.next cs = (t, rest)) (live : t.isEnd = false) :
    ∃ blanks l, cs = blanks ++ (l ++ rest) ∧ (∀ c ∈ blanks, Text.isBlank c) ∧
      Lexeme t l rest := by
  obtain ⟨blanks, c, behind, whole, blank, scanned⟩ := exists_scan h live
  have lexeme : ∃ l, c :: behind = l ++ rest ∧ Lexeme t l rest := by
    revert scanned
    apply scan_cases (motive := fun found =>
      found = (t, rest) → ∃ l, c :: behind = l ++ rest ∧ Lexeme t l rest)
    case single =>
      intro t single found
      cases found
      exact ⟨[c], rfl, lexeme_single single⟩
    case less => exact fun sign found => sign ▸ lexeme_less found
    case greater => exact fun sign found => sign ▸ lexeme_greater found
    case text => exact fun sign found => sign ▸ lexeme_text found live
    case number => exact fun begins found => lexeme_number begins found
    case name => exact fun begins found => lexeme_name begins found
    case lost => exact fun sign found => sign ▸ lexeme_lost found live
    case stray =>
      intro found
      cases found
      cases live
  obtain ⟨l, text, lexeme⟩ := lexeme
  exact ⟨blanks, l, by rw [← text]; exact whole, blank, lexeme⟩

end Token

end Spreadsheet
