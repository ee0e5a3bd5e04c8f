import Spreadsheet.Formula.Parse
import Spreadsheet.Proofs.Formula.Redirecting

/-!
# Tokens of a redirected text

The pieces of a text and its tokens are cut differently: a blank is a piece and no token, and the
two ends of a range are one piece only if nothing stands between them and the colon. A trace goes
through the pieces, the tokens, and the tokens of the redirected text side by side. It exists for
every text without stray characters whose references can be read, formula or not.
-/

namespace Spreadsheet

open Formula

/-- A reference with digits at its end is a token, whatever follows but a digit. -/
theorem Spelling.Numbered.next {s : Spelling} {rest : List Char} (h : s.Numbered)
    (boundary : ∀ c ∈ rest.head?, ¬ c.isDigit) :
    Token.next (s.chars ++ rest) = (.reference (String.ofList s.chars), rest) := by
  have split := h.split_append boundary
  have noName : s.isName = false := by simp [isName, h.digits_ne_nil]
  have first : ∃ c cs, s.chars = c :: cs ∧ (c.isAlpha || c == '$') := by
    cases letters : s.letters with
    | nil =>
        refine ⟨'$', marker s.rowFixed ++ s.digits, ?_, rfl⟩
        simp [chars, marker, letters, h.colFixed_of_no_letters letters]
    | cons c cs =>
        cases fixed : s.colFixed with
        | true => exact ⟨'$', _, by simp [chars, marker, fixed, letters]; rfl, rfl⟩
        | false =>
            have alpha := h.letters c (by simp [letters])
            refine ⟨c, cs ++ (marker s.rowFixed ++ s.digits), ?_, by simp [alpha]⟩
            simp [chars, marker, fixed, letters]
  obtain ⟨c, cs, same, begins⟩ := first
  rw [same] at split ⊢
  rw [List.cons_append] at split ⊢
  rw [Token.next_cons (Token.not_isBlank_of_name begins), Token.scan_name begins, Token.scanName,
    split, ← same]
  simp [noName]

/-- Whether a token belongs in a text that can be read: no stray character, and no reference
without a row. -/
def Token.Readable : Token → Prop
  | .reference written => ∃ r, resolve written = .ok r
  | .stop _ => False
  | _ => True

namespace Formula

theorem tokens_reference {s : Spelling} {rest : List Char} (h : s.Numbered)
    (boundary : ∀ c ∈ rest.head?, ¬ c.isDigit) :
    tokens (s.chars ++ rest) = .reference (String.ofList s.chars) :: tokens rest :=
  tokens_live (h.next boundary) rfl

theorem tokens_lostChars (rest : List Char) : tokens (lostChars ++ rest) = .lost :: tokens rest :=
  tokens_live rfl rfl

theorem tokens_colon (rest : List Char) : tokens (':' :: rest) = .colon :: tokens rest :=
  tokens_live rfl rfl

/-- A written reference that is read as one, lost or not, has a digit. -/
theorem exists_isDigit_of_resolve {cs : List Char} {r : Option Reference}
    (noBlank : ∀ c ∈ cs, ¬ Text.isBlank c) (h : resolve (String.ofList cs) = .ok r) :
    ∃ c ∈ cs, c.isDigit := by
  unfold resolve Reference.ofText at h
  simp only [String.toList_ofList] at h
  split at h
  · next found hfound =>
      rw [Reference.ofChars, Text.trim_eq_self noBlank] at hfound
      obtain ⟨-, -, hrow, -⟩ := Reference.readTrimmed_eq_ok hfound
      obtain ⟨nonempty, digits⟩ := Reference.digits_of_readRow hrow
      obtain ⟨d, ds, front⟩ := List.exists_cons_of_ne_nil nonempty
      have mem : d ∈ (Spelling.split cs).1.digits ++ (Spelling.split cs).2 := by simp [front]
      refine ⟨d, ?_, digits d mem⟩
      rw [← Spelling.chars_append_split cs, Spelling.chars]
      simp only [List.mem_append] at mem ⊢
      rcases mem with mem | mem <;> simp [mem]
  · split at h
    · next ends =>
        obtain ⟨d, last, digit⟩ := (Option.any_eq_true _ _).mp ends
        exact ⟨d, List.mem_of_getLast? last, digit⟩
    · cases h

theorem digits_ne_nil_of_resolve {s : Spelling} {r : Option Reference}
    (letters : ∀ c ∈ s.letters, c.isAlpha) (digits : ∀ c ∈ s.digits, c.isDigit)
    (h : resolve (String.ofList s.chars) = .ok r) : s.digits ≠ [] := by
  obtain ⟨d, mem, digit⟩ := exists_isDigit_of_resolve
    (fun c hc => (Spelling.of_mem_chars letters digits hc).1) h
  rcases Spelling.mem_chars mem with rfl | mem | mem
  · exact absurd digit (by decide)
  · exact absurd digit (Text.not_isDigit_of_isAlpha (letters d mem))
  · exact List.ne_nil_of_mem mem

/-- The parts of a reference that can be read have digits at their end. -/
theorem exists_numbered {w : String} {r : Option Reference} {l rest : List Char}
    (lexeme : Lexeme (.reference w) l rest) (hresolve : resolve w = .ok r) :
    ∃ s : Spelling, w = String.ofList s.chars ∧ l = s.chars ∧ s.Numbered ∧
      ∀ c ∈ rest.head?, ¬ c.isDigit := by
  obtain ⟨s, rfl, rfl, parts, begins⟩ := lexeme.reference w rfl
  have digits := digits_ne_nil_of_resolve parts.letters parts.digits hresolve
  exact ⟨s, rfl, rfl, ⟨parts.letters, parts.digits, digits, begins⟩, parts.boundary⟩

/-! ### Traces -/

/-- The pieces of a text that are no blanks. -/
def significant (cs : List Char) : List Piece :=
  (pieces cs).filter fun p => !p.isBlank

namespace Redirection

/-- The token of a lone reference after it is redirected. -/
def loneToken (f : Redirection) (written : List Char) : Token :=
  match Reference.ofChars written with
  | .ok r => (f.lone r).elim .lost fun r => .reference r.text
  | .error _ => .reference (String.ofList written)

/-- The tokens of a pair of references after it is redirected. -/
def pairTokens (f : Redirection) (first second : List Char) : List Token :=
  match Reference.ofChars first, Reference.ofChars second with
  | .ok a, .ok b => (f.pair a b).elim [.lost] fun moved =>
    [.reference moved.1.text, .colon, .reference moved.2.text]
  | _, _ => [.reference (String.ofList first), .colon, .reference (String.ofList second)]

end Redirection

/-- The pieces of a text without its blanks, its tokens, and those of the redirected text. -/
inductive Traced (f : Redirection) : List Piece → List Token → List Token → Prop where
  | finish : Traced f [] [.finish] [.finish]
  | plain {t : Token} {ps qs : List Piece} {ts ts' : List Token} : t.isEnd = false →
      t ≠ .colon → (∀ w, t ≠ .reference w) → ps ≠ [] → (∀ p ∈ ps, p.isPlain) →
      Traced f qs ts ts' → Traced f (ps ++ qs) (t :: ts) (t :: ts')
  | colon {qs : List Piece} {ts ts' : List Token} : Traced f qs ts ts' →
      Traced f (.other ':' :: qs) (.colon :: ts) (.colon :: ts')
  | lone {s : Spelling} {qs : List Piece} {ts ts' : List Token} : s.Numbered → s.letters ≠ [] →
      Traced f qs ts ts' → Traced f (.lone s.chars :: qs)
        (.reference (String.ofList s.chars) :: ts) (f.loneToken s.chars :: ts')
  /-- Digits behind dollar signs only are a reference for the tokens, but no piece. -/
  | letterless {s : Spelling} {ps qs : List Piece} {ts ts' : List Token} : s.Numbered →
      s.letters = [] → ps ≠ [] → (∀ p ∈ ps, p.isPlain) → Traced f qs ts ts' →
      Traced f (ps ++ qs) (.reference (String.ofList s.chars) :: ts)
        (.reference (String.ofList s.chars) :: ts')
  | pair {s s' : Spelling} {qs : List Piece} {ts ts' : List Token} : s.Numbered →
      s.letters ≠ [] → s'.Numbered → s'.letters ≠ [] → Traced f qs ts ts' →
      Traced f (.pair s.chars s'.chars :: qs)
        (.reference (String.ofList s.chars) :: .colon ::
          .reference (String.ofList s'.chars) :: ts)
        (f.pairTokens s.chars s'.chars ++ ts')

section Steps

variable {f : Redirection} {s s' : Spelling} {l rest : List Char} {ps : List Piece}

theorem significant_append (h : pieces (l ++ rest) = ps ++ pieces rest) :
    significant (l ++ rest) = (ps.filter fun p => !p.isBlank) ++ significant rest := by
  rw [significant, h, List.filter_append, significant]

theorem isBlank_of_isPlain {p : Piece} (h : p.isPlain) : p.isBlank = false := by
  cases p with
  | other c =>
      obtain ⟨-, blank⟩ : c ≠ ':' ∧ Text.isBlank c = false := by simpa [Piece.isPlain] using h
      exact blank
  | quoted inner => rfl
  | lone written => rfl
  | pair first second => rfl

theorem significant_append_plain (h : pieces (l ++ rest) = ps ++ pieces rest)
    (plain : ∀ p ∈ ps, p.isPlain) : significant (l ++ rest) = ps ++ significant rest := by
  rw [significant_append h, List.filter_eq_self.mpr]
  intro p hp
  rw [isBlank_of_isPlain (plain p hp)]
  rfl

theorem significant_blanks_append (h : ∀ c ∈ l, Text.isBlank c) :
    significant (l ++ rest) = significant rest := by
  have cut : pieces (l ++ rest) = l.map .other ++ pieces rest :=
    pieces_signs fun c hc => Redirection.sign_of_isBlank (h c hc)
  rw [significant_append cut, List.filter_eq_nil_iff.mpr]
  · rfl
  · intro p hp
    obtain ⟨c, hc, rfl⟩ := List.mem_map.mp hp
    simp [Piece.isBlank, h c hc]

theorem significant_of_blanks (h : ∀ c ∈ l, Text.isBlank c) : significant l = [] := by
  have blank : significant (l ++ []) = significant [] := significant_blanks_append h
  rw [List.append_nil] at blank
  rw [blank, significant, pieces_nil]
  rfl

theorem significant_lone (h : s.Numbered) (letters : s.letters ≠ [])
    (boundary : ∀ c ∈ rest.head?, ¬ c.isDigit)
    (alone : ∀ behind, rest = ':' :: behind → Piece.reference? behind = none) :
    significant (s.chars ++ rest) = .lone s.chars :: significant rest := by
  have cut : pieces (s.chars ++ rest) = [.lone s.chars] ++ pieces rest :=
    pieces_lone h letters boundary alone
  rw [significant_append cut]
  rfl

theorem significant_pair (h : s.Numbered) (letters : s.letters ≠ []) (h' : s'.Numbered)
    (letters' : s'.letters ≠ []) (boundary : ∀ c ∈ rest.head?, ¬ c.isDigit) :
    significant (s.chars ++ ':' :: (s'.chars ++ rest)) =
      .pair s.chars s'.chars :: significant rest := by
  rw [significant, pieces_pair h letters h' letters' boundary, List.filter_cons_of_pos rfl,
    significant]

/-- The token of a redirected lone reference. -/
theorem tokens_lone (f : Redirection) (h : s.Numbered) (boundary : ∀ c ∈ rest.head?, ¬ c.isDigit) :
    tokens (f.piece (.lone s.chars) ++ f.chars rest) =
      f.loneToken s.chars :: tokens (f.chars rest) := by
  have boundary' := (f.sameStart_chars rest).digit boundary
  rw [Redirection.piece, Redirection.loneToken]
  cases Reference.ofChars s.chars with
  | error cause => exact tokens_reference h boundary'
  | ok r =>
      cases hmoved : f.lone r with
      | none => simpa [hmoved] using tokens_lostChars (f.chars rest)
      | some moved =>
          simp only [hmoved, Option.map_some, Option.getD_some, Option.elim_some]
          exact tokens_reference moved.numbered_spelling boundary'

/-- The tokens of a redirected pair of references. -/
theorem tokens_pair (f : Redirection) (h : s.Numbered) (h' : s'.Numbered)
    (boundary : ∀ c ∈ rest.head?, ¬ c.isDigit) :
    tokens (f.piece (.pair s.chars s'.chars) ++ f.chars rest) =
      f.pairTokens s.chars s'.chars ++ tokens (f.chars rest) := by
  have boundary' := (f.sameStart_chars rest).digit boundary
  have joined {s s' : Spelling} (h : s.Numbered) (h' : s'.Numbered) :
      tokens (s.chars ++ ':' :: s'.chars ++ f.chars rest) =
        [.reference (String.ofList s.chars), .colon, .reference (String.ofList s'.chars)] ++
          tokens (f.chars rest) := by
    rw [List.append_assoc, List.cons_append, tokens_reference h (by simp), tokens_colon,
      tokens_reference h' boundary']
    rfl
  rw [Redirection.piece, Redirection.pairTokens]
  cases Reference.ofChars s.chars with
  | error cause => exact joined h h'
  | ok a =>
      cases Reference.ofChars s'.chars with
      | error cause => exact joined h h'
      | ok b =>
          cases hmoved : f.pair a b with
          | none => simpa [hmoved] using tokens_lostChars (f.chars rest)
          | some moved =>
              simp only [hmoved, Option.map_some, Option.getD_some, Option.elim_some]
              exact joined moved.1.numbered_spelling moved.2.numbered_spelling

theorem isPlain_of_mem_chars (h : s.Numbered) :
    ∀ p ∈ s.chars.map Piece.other, p.isPlain := by
  intro p hp
  obtain ⟨c, hc, rfl⟩ := List.mem_map.mp hp
  rcases Spelling.mem_chars hc with rfl | hc | hc
  · decide
  · exact Token.isPlain_of_isAlpha (h.letters c hc)
  · exact Token.isPlain_of_isDigit (h.digits c hc)

/-- A reference in front of a text that can be traced. If it is the first end of a range without
blanks, both ends are traced at once. -/
theorem traced_reference (h : s.Numbered) (boundary : ∀ c ∈ rest.head?, ¬ c.isDigit)
    (ih : ∀ rest', rest' <:+ rest → (∀ t ∈ tokens rest', t ∈ tokens rest) →
      Traced f (significant rest') (tokens rest') (tokens (f.chars rest'))) :
    Traced f (significant (s.chars ++ rest)) (tokens (s.chars ++ rest))
      (tokens (f.chars (s.chars ++ rest))) := by
  have traced := ih rest (List.suffix_refl rest) fun _ ht => ht
  by_cases letters : s.letters = []
  · have cut := pieces_letterless h letters boundary
    have plain := isPlain_of_mem_chars h
    have nonempty : s.chars.map Piece.other ≠ [] := by
      obtain ⟨d, digit⟩ := List.exists_mem_of_ne_nil _ h.digits_ne_nil
      have mem : d ∈ s.chars := by simp [Spelling.chars, digit]
      exact List.ne_nil_of_mem (List.mem_map_of_mem mem)
    rw [significant_append_plain cut plain, tokens_reference h boundary,
      f.chars_append_eq cut fun p hp => Piece.refers_of_isPlain (plain p hp),
      tokens_reference h ((f.sameStart_chars rest).digit boundary)]
    exact .letterless h letters nonempty plain traced
  by_cases joined : ∃ behind second rest', rest = ':' :: behind ∧
      Piece.reference? behind = some (second, rest')
  · obtain ⟨behind, second, rest', rfl, form⟩ := joined
    obtain ⟨s', h', letters', rfl, rfl, boundary'⟩ := Piece.exists_of_reference? form
    have tokens' : tokens (':' :: (s'.chars ++ rest')) =
        .colon :: .reference (String.ofList s'.chars) :: tokens rest' := by
      rw [tokens_colon, tokens_reference h' boundary']
    have traced' := ih rest' ((List.suffix_append _ _).trans (List.suffix_cons _ _)) (by
      rw [tokens']
      intro t ht
      simp [ht])
    have cut : pieces ((s.chars ++ ':' :: s'.chars) ++ rest') =
        [.pair s.chars s'.chars] ++ pieces rest' := by
      rw [List.append_assoc, List.cons_append, pieces_pair h letters h' letters' boundary']
      rfl
    have text := f.chars_append cut
    rw [List.flatMap_singleton, List.append_assoc, List.cons_append] at text
    rw [significant_pair h letters h' letters' boundary', tokens_reference h boundary, tokens',
      text, tokens_pair f h h' boundary']
    exact .pair h letters h' letters' traced'
  · have alone (behind : List Char) (colon : rest = ':' :: behind) :
        Piece.reference? behind = none := by
      cases form : Piece.reference? behind with
      | none => rfl
      | some found => exact absurd ⟨behind, found.1, found.2, colon, form⟩ joined
    have cut : pieces (s.chars ++ rest) = [.lone s.chars] ++ pieces rest :=
      pieces_lone h letters boundary alone
    have text := f.chars_append cut
    rw [List.flatMap_singleton] at text
    rw [significant_lone h letters boundary alone, tokens_reference h boundary, text,
      tokens_lone f h boundary]
    exact .lone h letters traced

/-- A token in front of a text that can be traced. -/
theorem traced_lexeme {t : Token} (lexeme : Lexeme t l rest) (live : t.isEnd = false)
    (readable : t.Readable)
    (ih : ∀ rest', rest' <:+ rest → (∀ u ∈ tokens rest', u ∈ tokens rest) →
      Traced f (significant rest') (tokens rest') (tokens (f.chars rest'))) :
    Traced f (significant (l ++ rest)) (tokens (l ++ rest)) (tokens (f.chars (l ++ rest))) := by
  have traced := ih rest (List.suffix_refl rest) fun _ hu => hu
  have front := tokens_live (lexeme.next _ (.refl rest)) live
  by_cases colon : t = .colon
  · subst colon
    cases lexeme.colon rfl
    have cut : pieces ([':'] ++ rest) = [.other ':'] ++ pieces rest :=
      pieces_sign (by decide) (by decide)
    rw [significant_append cut, front, f.chars_append_eq cut (by decide), List.singleton_append,
      tokens_colon]
    exact .colon traced
  by_cases reference : ∃ w, t = .reference w
  · obtain ⟨w, rfl⟩ := reference
    obtain ⟨r, hresolve⟩ := readable
    obtain ⟨s, rfl, rfl, numbered, boundary⟩ := exists_numbered lexeme hresolve
    exact traced_reference numbered boundary ih
  · have noReference (w : String) : t ≠ .reference w := fun same => reference ⟨w, same⟩
    obtain ⟨ps, some, plain, cut⟩ := lexeme.plain colon noReference
    have text := f.chars_append_eq cut fun p hp => Piece.refers_of_isPlain (plain p hp)
    have front' := tokens_live (lexeme.next _ (f.sameStart_chars rest)) live
    rw [significant_append_plain cut plain, front, text, front']
    exact .plain live colon noReference some plain traced

/-- Where the tokens of a text without stray characters end, only blanks are left. -/
theorem isBlank_of_isEnd {cs : List Char} (readable : ∀ t ∈ tokens cs, t.Readable)
    (ends : (Token.next cs).1.isEnd) : ∀ c ∈ cs, Text.isBlank c := by
  have last := readable (Token.next cs).1 (by rw [tokens_of_isEnd ends]; simp)
  apply isBlank_of_next_finish
  generalize (Token.next cs).1 = t at *
  cases t <;> first | rfl | exact False.elim last | cases ends

/-- A text without stray characters whose references can be read has a trace. -/
theorem traced_tokens (f : Redirection) (cs : List Char)
    (readable : ∀ t ∈ tokens cs, t.Readable) :
    Traced f (significant cs) (tokens cs) (tokens (f.chars cs)) := by
  induction cs using lexeme_induction with
  | ends cs ends =>
      have blanks := isBlank_of_isEnd readable ends
      have text : f.chars (cs ++ []) = cs ++ f.chars [] := f.chars_blanks_append blanks
      rw [List.append_nil, f.chars_nil, List.append_nil] at text
      rw [significant_of_blanks blanks, text, tokens_of_blanks blanks]
      exact .finish
  | @live t front l rest live blanks lexeme ih =>
      have whole := tokens_lexeme live blanks lexeme
      rw [whole] at readable
      have behind (rest' : List Char) (suffix : rest' <:+ rest)
          (sub : ∀ u ∈ tokens rest', u ∈ tokens rest) :
          Traced f (significant rest') (tokens rest') (tokens (f.chars rest')) :=
        ih rest' suffix fun u hu => readable u (List.mem_cons_of_mem t (sub u hu))
      rw [f.chars_blanks_append blanks, tokens_blanks_append blanks,
        tokens_blanks_append blanks, significant_blanks_append blanks]
      exact traced_lexeme lexeme live (readable t List.mem_cons_self) behind

end Steps

end Formula

end Spreadsheet
