import Mathlib.Data.List.TakeWhile
import Spreadsheet.Proofs.Formula.Lexeme
import Spreadsheet.Proofs.Text.Trim

/-!
# Blanks around a formula

Blanks in front of a text and behind it do not change its tokens. What the tokens of a formula
are therefore does not depend on whether the text is trimmed at its end, only on the equals sign
at its front.
-/

namespace Spreadsheet

variable {back : List Char}

/-- No token goes on with a blank. -/
theorem SameEdge.of_blank {b : Char} (blank : Text.isBlank b) (cs ds : List Char) :
    SameEdge cs (b :: ds) where
  digit _ d hd digit := by
    cases hd
    exact Text.not_isBlank_of_isDigit digit blank
  name _ d hd name := by
    cases hd
    exact Token.not_isBlank_of_name name blank
  sign c hc _ same := by
    cases same
    have signs : ∀ c ∈ ['.', '=', '>', '('], ¬ Text.isBlank c := by simp [Text.isBlank]
    exact signs _ hc blank

/-- Behind a text, blanks are no worse than its end. -/
theorem SameStart.append_blanks (blanks : ∀ c ∈ back, Text.isBlank c) (cs : List Char) :
    SameStart cs (cs ++ back) := by
  cases cs with
  | cons c cs => exact .of_head_eq rfl
  | nil =>
      cases back with
      | nil => exact .refl []
      | cons b back => exact ⟨.of_blank (blanks b List.mem_cons_self) [] back, nofun⟩

namespace Token

variable {c : Char} {cs : List Char}

theorem isEnd_single {t : Token} (h : single? c = some t) : t.isEnd = false := by
  unfold single? at h
  split at h <;> cases h <;> rfl

theorem isEnd_scanLess (cs : List Char) : (scanLess cs).1.isEnd = false := by
  unfold scanLess
  split <;> rfl

theorem isEnd_scanGreater (cs : List Char) : (scanGreater cs).1.isEnd = false := by
  unfold scanGreater
  split <;> rfl

theorem isEnd_scanNumber (cs : List Char) : (scanNumber cs).1.isEnd = false := by
  unfold scanNumber
  dsimp only
  split <;> rfl

theorem isEnd_scanName (cs : List Char) : (scanName cs).1.isEnd = false := by
  unfold scanName ofLetters
  dsimp only
  split
  · split
    · rfl
    split
    · rfl
    split <;> rfl
  · rfl

theorem scanText_append_blanks (blanks : ∀ c ∈ back, Text.isBlank c)
    (h : (scanText cs).1.isEnd) : (scanText (cs ++ back)).1 = stop '"' := by
  unfold scanText at h ⊢
  split at h
  · cases h
  · next e =>
      have inside : ∀ c ∈ cs, (c != '"') = true := List.dropWhile_eq_nil_iff.mp e
      have behind : ∀ c ∈ back, (c != '"') = true := by
        intro c hc
        simp only [bne_iff_ne]
        rintro rfl
        exact absurd (blanks _ hc) (by decide)
      rw [List.dropWhile_append_of_pos inside, List.dropWhile_eq_nil_iff.mpr behind]

theorem scanLost_append_blanks (blanks : ∀ c ∈ back, Text.isBlank c)
    (h : (scanLost cs).1.isEnd) : (scanLost (cs ++ back)).1 = stop '#' := by
  unfold scanLost
  split
  · next a b c d rest same =>
      split
      · next isRef =>
          obtain ⟨letters, rfl⟩ := lost_letters isRef
          have noBlank : ∀ x ∈ [a, b, c, '!'], ¬ Text.isBlank x := by
            intro x hx
            rcases List.mem_append.mp (show x ∈ [a, b, c] ++ ['!'] from hx) with hx | hx
            · exact Text.not_isBlank_of_isAlpha (letters x hx)
            · rw [List.mem_singleton.mp hx]
              decide
          -- One of the five characters would have to be a blank if the text were too short.
          rcases cs with _ | ⟨x, _ | ⟨y, _ | ⟨z, _ | ⟨w, cs⟩⟩⟩⟩
          · cases same
            exact absurd (blanks a (by simp)) (noBlank a (by simp))
          · cases same
            exact absurd (blanks b (by simp)) (noBlank b (by simp))
          · cases same
            exact absurd (blanks c (by simp)) (noBlank c (by simp))
          · cases same
            exact absurd (blanks '!' (by simp)) (noBlank '!' (by simp))
          · cases same
            rw [scanLost, if_pos isRef] at h
            cases h
      · rfl
  · rfl

/-- A character that begins no token does not begin one if there are blanks behind the text. -/
theorem scan_append_blanks (blanks : ∀ c ∈ back, Text.isBlank c) (h : (scan c cs).1.isEnd) :
    (scan c (cs ++ back)).1 = stop c := by
  have number : startsNumber c (cs ++ back) = startsNumber c cs := by
    cases cs with
    | cons d ds => rfl
    | nil =>
        cases back with
        | nil => rfl
        | cons b bs =>
            have digit : b.isDigit = false := by
              cases digit : b.isDigit with
              | false => rfl
              | true => exact absurd (blanks b (by simp)) (Text.not_isBlank_of_isDigit digit)
            simp [startsNumber, digit]
  cases single : single? c with
  | some t =>
      rw [scan, single] at h
      rw [isEnd_single single] at h
      cases h
  | none =>
      simp only [scan, single, number] at h ⊢
      split
      · next sign =>
          rw [if_pos sign, isEnd_scanLess] at h
          cases h
      next noLess =>
      rw [if_neg noLess] at h
      split
      · next sign =>
          rw [if_pos sign, isEnd_scanGreater] at h
          cases h
      next noGreater =>
      rw [if_neg noGreater] at h
      split
      · next sign =>
          rw [if_pos sign] at h
          rw [scanText_append_blanks blanks h, sign]
      next noQuote =>
      rw [if_neg noQuote] at h
      split
      · next begins =>
          rw [if_pos begins, isEnd_scanNumber] at h
          cases h
      next noNumber =>
      rw [if_neg noNumber] at h
      split
      · next begins =>
          rw [if_pos begins, isEnd_scanName] at h
          cases h
      next noName =>
      rw [if_neg noName] at h
      split
      · next sign =>
          rw [if_pos sign] at h
          rw [scanLost_append_blanks blanks h, sign]
      · rfl

end Token

namespace Formula

open Token

variable {t : Token} {cs rest : List Char}

theorem tokens_of_isEnd (h : (Token.next cs).1.isEnd) : tokens cs = [(Token.next cs).1] := by
  rw [tokens]
  exact dif_pos h

theorem tokens_live (h : Token.next cs = (t, rest)) (live : t.isEnd = false) :
    tokens cs = t :: tokens rest := by
  rw [tokens, h]
  simp [live]

theorem next_blanks_append {front : List Char} (blanks : ∀ c ∈ front, Text.isBlank c) :
    Token.next (front ++ cs) = Token.next cs := by
  have start : Text.trimStart (front ++ cs) = Text.trimStart cs := by
    induction front with
    | nil => rfl
    | cons b front ih =>
        rw [List.cons_append, Text.trimStart_cons, if_pos (blanks b List.mem_cons_self),
          ih fun c hc => blanks c (List.mem_cons_of_mem b hc)]
  rw [Token.next, start, Token.next]

/-- Blanks in front of a text do not change its tokens. -/
theorem tokens_blanks_append {front : List Char} (blanks : ∀ c ∈ front, Text.isBlank c) :
    tokens (front ++ cs) = tokens cs := by
  have same : Token.next (front ++ cs) = Token.next cs := next_blanks_append blanks
  cases ends : (Token.next cs).1.isEnd with
  | true => rw [tokens_of_isEnd (same ▸ ends), tokens_of_isEnd ends, same]
  | false => rw [tokens_live same ends, tokens_live rfl ends]

theorem tokens_of_blanks (h : ∀ c ∈ cs, Text.isBlank c) : tokens cs = [finish] := by
  have blank : tokens (cs ++ []) = tokens [] := tokens_blanks_append h
  rw [List.append_nil] at blank
  rw [blank, tokens_of_isEnd rfl]
  rfl

theorem next_append_blanks_of_isEnd (blanks : ∀ c ∈ back, Text.isBlank c)
    (h : (Token.next cs).1.isEnd) : (Token.next (cs ++ back)).1 = (Token.next cs).1 := by
  obtain ⟨front, text, blank⟩ := Text.exists_trimStart cs
  have head := Text.head?_trimStart cs
  generalize Text.trimStart cs = core at text head
  subst text
  rw [next_blanks_append blank] at h
  rw [List.append_assoc, next_blanks_append blank, next_blanks_append blank]
  cases core with
  | nil =>
      have all : Token.next (back ++ []) = Token.next [] := next_blanks_append blanks
      rw [List.append_nil] at all
      rw [List.nil_append, all]
  | cons c core =>
      have start : ¬ Text.isBlank c := head c rfl
      rw [next_cons start] at h ⊢
      have stops : (scan c (core ++ [])).1 = stop c := scan_append_blanks (by simp) h
      rw [List.append_nil] at stops
      rw [List.cons_append, next_cons start, scan_append_blanks blanks h, stops]

/-- Only blanks are left where the stream ends without a stray character. -/
theorem isBlank_of_next_finish (h : (Token.next cs).1 = .finish) : ∀ c ∈ cs, Text.isBlank c := by
  obtain ⟨front, text, blank⟩ := Text.exists_trimStart cs
  have head := Text.head?_trimStart cs
  generalize Text.trimStart cs = core at text head
  subst text
  rw [next_blanks_append blank] at h
  cases core with
  | nil =>
      rw [List.append_nil]
      exact blank
  | cons c core =>
      rw [next_cons (head c rfl)] at h
      have ends : (scan c core).1.isEnd := by
        rw [h]
        rfl
      have stops : (scan c (core ++ [])).1 = stop c := scan_append_blanks (by simp) ends
      rw [List.append_nil, h] at stops
      cases stops

/-- Induction on a text from behind: what holds of every end of a text behind a lexeme holds of
the text in front of which there is the lexeme too. -/
theorem lexeme_induction {motive : List Char → Prop}
    (ends : ∀ cs, (Token.next cs).1.isEnd → motive cs)
    (live : ∀ {t : Token} {front l rest : List Char}, t.isEnd = false →
      (∀ c ∈ front, Text.isBlank c) → Lexeme t l rest →
      (∀ rest', rest' <:+ rest → motive rest') → motive (front ++ (l ++ rest)))
    (cs : List Char) : motive cs := by
  induction h : cs.length using Nat.strongRecOn generalizing cs with
  | ind n ih =>
      subst h
      cases next : Token.next cs with
      | mk t rest =>
          cases isEnd : t.isEnd with
          | true =>
              apply ends
              rw [next]
              exact isEnd
          | false =>
              have shorter : rest.length < cs.length := by
                have less := next_length_lt cs (by
                  rw [next]
                  rintro rfl
                  cases isEnd)
                rwa [next] at less
              obtain ⟨front, l, rfl, blanks, lexeme⟩ := exists_lexeme next isEnd
              refine live isEnd blanks lexeme fun rest' suffix => ih rest'.length ?_ rest' rfl
              have := suffix.length_le
              omega

theorem tokens_lexeme {front l : List Char} (live : t.isEnd = false)
    (blanks : ∀ c ∈ front, Text.isBlank c) (lexeme : Lexeme t l rest) :
    tokens (front ++ (l ++ rest)) = t :: tokens rest := by
  rw [tokens_blanks_append blanks]
  exact tokens_live (lexeme.next _ (.refl rest)) live

/-- Blanks behind a text do not change its tokens. -/
theorem tokens_append_blanks (blanks : ∀ c ∈ back, Text.isBlank c) (cs : List Char) :
    tokens (cs ++ back) = tokens cs := by
  induction cs using lexeme_induction with
  | ends cs ends =>
      have same := next_append_blanks_of_isEnd blanks ends
      rw [tokens_of_isEnd ends, tokens_of_isEnd (same ▸ ends), same]
  | @live t front l rest live blank lexeme ih =>
      have next := lexeme.next _ (.append_blanks blanks rest)
      rw [tokens_lexeme live blank lexeme, List.append_assoc, List.append_assoc,
        tokens_blanks_append blank, tokens_live next live, ih rest (List.suffix_refl rest)]

/-- The text of a formula behind the equals sign at its front, if there is one. -/
def content (cs : List Char) : List Char :=
  match Text.trimStart cs with
  | '=' :: rest => rest
  | rest => rest

theorem content_equals {front : List Char} (blanks : ∀ c ∈ front, Text.isBlank c) :
    content (front ++ '=' :: rest) = rest := by
  have sign : ∀ c ∈ ('=' :: rest).head?, ¬ Text.isBlank c := by
    intro c hc
    cases hc
    decide
  rw [content, Text.trimStart_append blanks sign]
  rfl

theorem content_other {front : List Char} (blanks : ∀ c ∈ front, Text.isBlank c)
    (head : ∀ c ∈ rest.head?, ¬ Text.isBlank c ∧ c ≠ '=') : content (front ++ rest) = rest := by
  rw [content, Text.trimStart_append blanks fun c hc => (head c hc).1]
  split
  · exact absurd rfl (head '=' rfl).2
  · rfl

/-- A text is its content with blanks in front of it, and an equals sign or none between them. -/
theorem exists_content (cs : List Char) :
    ∃ front, (∀ c ∈ front, Text.isBlank c) ∧ (cs = front ++ '=' :: content cs ∨
      cs = front ++ content cs ∧ ∀ c ∈ (content cs).head?, ¬ Text.isBlank c ∧ c ≠ '=') := by
  obtain ⟨front, text, blanks⟩ := Text.exists_trimStart cs
  have head := Text.head?_trimStart cs
  refine ⟨front, blanks, ?_⟩
  unfold content
  generalize Text.trimStart cs = core at *
  split
  · exact .inl text
  · next sign =>
      refine .inr ⟨text, fun c hc => ⟨head c hc, ?_⟩⟩
      rintro rfl
      obtain ⟨rest, same⟩ := List.head?_eq_some_iff.mp hc
      exact sign rest same

/-- What the tokens see of a formula is its content without the blanks behind it. -/
theorem exists_content_eq (cs : List Char) :
    ∃ back, (∀ c ∈ back, Text.isBlank c) ∧ content cs = body cs ++ back := by
  obtain ⟨back, text, blanks⟩ := Text.exists_trimEnd (Text.trimStart cs)
  refine ⟨back, blanks, ?_⟩
  rw [body, Text.trim, content]
  generalize Text.trimEnd (Text.trimStart cs) = core at *
  rw [text]
  cases core with
  | nil =>
      rw [List.nil_append]
      split
      · next rest => exact absurd (blanks '=' (by simp)) (by decide)
      · rfl
  | cons c core =>
      rw [List.cons_append]
      split
      · next rest same =>
          cases same
          rfl
      · next sign =>
          split
          · next rest same =>
              cases same
              exact absurd rfl (sign _)
          · rfl

/-- The tokens of a formula are those of its text behind the equals sign. -/
theorem tokens_body (cs : List Char) : tokens (body cs) = tokens (content cs) := by
  obtain ⟨back, blanks, text⟩ := exists_content_eq cs
  rw [text, tokens_append_blanks blanks]

end Formula

end Spreadsheet
