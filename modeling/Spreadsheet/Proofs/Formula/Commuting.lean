import Spreadsheet.Proofs.Formula.Leaves

/-!
# Redirecting the text of a formula and redirecting its tree

If the colons of a formula have no blanks around them and its references have letters, a range of
the formula is one piece of its text. The redirected text then spells the redirected tree, for
every way to redirect references that stays on the grid.
-/

namespace Spreadsheet

/-- Whether a token, if it is a written reference, has a letter. -/
def Token.isLettered : Token → Bool
  | .reference written => written.toList.any Char.isAlpha
  | _ => true

namespace Formula

/-- Whether no colon has a blank beside it. Colons between quotes do not count. -/
def TightColons (cs : List Char) : Prop :=
  ∀ before after, cs = before ++ ':' :: after → before.count '"' % 2 = 0 →
    (∀ c ∈ before.getLast?, ¬ Text.isBlank c) ∧ ∀ c ∈ after.head?, ¬ Text.isBlank c

/-- It is enough to look at every place of the text. -/
theorem tightColons_iff (cs : List Char) : TightColons cs ↔
    ∀ n < cs.length, cs[n]? = some ':' → (cs.take n).count '"' % 2 = 0 →
      (cs.take n).getLast?.all (!Text.isBlank ·) ∧
        (cs.drop (n + 1)).head?.all (!Text.isBlank ·) := by
  simp only [Option.all_eq_true, Bool.not_eq_true']
  constructor
  · intro h n hn colon quotes
    obtain ⟨inside, same⟩ := List.getElem?_eq_some_iff.mp colon
    have whole : cs = cs.take n ++ ':' :: cs.drop (n + 1) := by
      rw [← same, List.getElem_cons_drop, List.take_append_drop]
    simpa using h (cs.take n) (cs.drop (n + 1)) whole quotes
  · rintro h before after rfl quotes
    simpa using h before.length (by simp) (by simp) (by simpa using quotes)

instance (cs : List Char) : Decidable (TightColons cs) :=
  decidable_of_iff _ (tightColons_iff cs).symm

variable {cs l rest : List Char} {s : Spelling} {t : Token} {ts : List Token}

/-- The colons behind a part of a text whose quotes are closed. -/
theorem TightColons.behind (h : TightColons (l ++ rest)) (quotes : l.count '"' % 2 = 0) :
    TightColons rest := by
  rintro before after rfl closed
  obtain ⟨last, head⟩ := h (l ++ before) after (by rw [List.append_assoc]) (by
    rw [List.count_append]
    omega)
  refine ⟨fun c hc => last c ?_, head⟩
  rw [List.getLast?_append]
  simp [Option.mem_def.mp hc]

theorem exists_next (h : tokens cs = t :: ts) (live : t.isEnd = false) :
    ∃ rest, Token.next cs = (t, rest) ∧ tokens rest = ts := by
  cases ends : (Token.next cs).1.isEnd with
  | true =>
      rw [tokens_of_isEnd ends] at h
      cases h
      rw [live] at ends
      cases ends
  | false =>
      rw [tokens_live rfl ends] at h
      cases h
      exact ⟨_, rfl, rfl⟩

theorem count_quotes_chars (numbered : s.Numbered) : s.chars.count '"' = 0 :=
  List.count_eq_zero.mpr fun mem =>
    (Spelling.of_mem_chars numbered.letters numbered.digits mem).2 rfl

theorem count_quotes_blanks (blanks : ∀ c ∈ l, Text.isBlank c) : l.count '"' = 0 :=
  List.count_eq_zero.mpr fun mem => absurd (blanks _ mem) (by decide)

theorem letters_ne_nil (numbered : s.Numbered)
    (lettered : (Token.reference (String.ofList s.chars)).isLettered) : s.letters ≠ [] := by
  rw [Token.isLettered, String.toList_ofList, List.any_eq_true] at lettered
  obtain ⟨c, mem, alpha⟩ := lettered
  rcases Spelling.mem_chars mem with rfl | mem | mem
  · cases alpha
  · exact List.ne_nil_of_mem mem
  · exact absurd (numbered.digits c mem) (Text.not_isDigit_of_isAlpha alpha)

/-- Nothing stands between a reference, a colon behind it, and the reference behind that. -/
theorem exists_second {w : String} {r : Option Reference} (numbered : s.Numbered)
    (tight : TightColons (s.chars ++ rest))
    (behind : tokens rest = .colon :: .reference w :: ts) (hresolve : resolve w = .ok r)
    (lettered : (Token.reference w).isLettered) :
    ∃ (s' : Spelling) (rest' : List Char), s'.Numbered ∧ s'.letters ≠ [] ∧
      rest = ':' :: (s'.chars ++ rest') ∧ (∀ c ∈ rest'.head?, ¬ c.isDigit) ∧
      tokens rest' = ts := by
  obtain ⟨rest₁, next₁, behind₁⟩ := exists_next behind rfl
  obtain ⟨rest₂, next₂, behind₂⟩ := exists_next behind₁ rfl
  obtain ⟨blank₁, l₁, rfl, blanks₁, lexeme₁⟩ := Token.exists_lexeme next₁ rfl
  obtain ⟨blank₂, l₂, rfl, blanks₂, lexeme₂⟩ := Token.exists_lexeme next₂ rfl
  cases lexeme₁.colon rfl
  obtain ⟨s', rfl, rfl, numbered', boundary⟩ := exists_numbered lexeme₂ hresolve
  have closed : s.chars.count '"' % 2 = 0 := by rw [count_quotes_chars numbered]
  obtain ⟨last, head⟩ := tight.behind closed blank₁ _ rfl (by rw [count_quotes_blanks blanks₁])
  have none₁ : blank₁ = [] := by
    cases h : blank₁.getLast? with
    | none => exact List.getLast?_eq_none_iff.mp h
    | some c => exact absurd (blanks₁ c (List.mem_of_getLast? h)) (last c h)
  have none₂ : blank₂ = [] := by
    cases blank₂ with
    | nil => rfl
    | cons c blank₂ => exact absurd (blanks₂ c List.mem_cons_self) (head c rfl)
  exact ⟨s', rest₂, numbered', letters_ne_nil numbered' lettered, by rw [none₁, none₂]; rfl,
    boundary, behind₂⟩

/-- If colons are tight and references have letters, every colon is part of a pair. -/
theorem colon_not_mem_significant (cs : List Char) (grouped : Grouped (tokens cs))
    (lettered : ∀ t ∈ tokens cs, t.isLettered) (tight : TightColons cs) :
    .other ':' ∉ significant cs := by
  induction cs using lexeme_induction with
  | ends cs ends =>
      rw [significant_of_blanks (isBlank_of_isEnd grouped.readable ends)]
      exact List.not_mem_nil
  | @live t front l rest live blanks lexeme ih =>
      have inside := tight.behind (by rw [count_quotes_blanks blanks])
      have behind := inside.behind lexeme.quotes
      rw [tokens_lexeme live blanks lexeme] at grouped lettered
      rw [significant_blanks_append blanks]
      have next (grouped' : Grouped (tokens rest)) : .other ':' ∉ significant rest :=
        ih rest (List.suffix_refl rest) grouped'
          (fun u hu => lettered u (List.mem_cons_of_mem t hu)) behind
      by_cases reference : ∃ w, t = .reference w
      · obtain ⟨w, rfl⟩ := reference
        obtain ⟨r, hresolve⟩ := grouped.readable _ List.mem_cons_self
        obtain ⟨s, rfl, rfl, numbered, boundary⟩ := exists_numbered lexeme hresolve
        have letters := letters_ne_nil numbered (lettered _ List.mem_cons_self)
        rcases grouped.reference_inv with ⟨-, -, grouped'⟩ | ⟨v, us, -, b, same, -, hb, grouped'⟩
        · have alone (after : List Char) (colon : rest = ':' :: after) :
              Piece.reference? after = none := by
            rw [colon, tokens_colon] at grouped'
            exact absurd rfl grouped'.head?_ne_colon
          rw [significant_lone numbered letters boundary alone, List.mem_cons, not_or]
          exact ⟨by simp, next grouped'⟩
        · have second : (Token.reference v).isLettered := lettered _ (by rw [same]; simp)
          obtain ⟨s', rest', numbered', letters', rfl, boundary', same'⟩ :=
            exists_second numbered inside same hb second
          have suffix : rest' <:+ ':' :: (s'.chars ++ rest') :=
            (List.suffix_append _ _).trans (List.suffix_cons _ _)
          have closed : (':' :: s'.chars).count '"' % 2 = 0 := by
            rw [List.count_cons_of_ne (by decide), count_quotes_chars numbered']
          have later := ih rest' suffix (same' ▸ grouped')
            (fun u hu => lettered u (by rw [same]; simp [same' ▸ hu]))
            (TightColons.behind (l := ':' :: s'.chars) behind closed)
          rw [significant_pair numbered letters numbered' letters' boundary', List.mem_cons, not_or]
          exact ⟨by simp, later⟩
      · have noReference (w : String) : t ≠ .reference w := fun same => reference ⟨w, same⟩
        have colon : t ≠ .colon := by
          rintro rfl
          exact grouped.head?_ne_colon rfl
        obtain ⟨ps, -, plain, cut⟩ := lexeme.plain colon noReference
        rw [significant_append_plain cut plain, List.mem_append, not_or]
        refine ⟨fun mem => ?_, next (grouped.tail noReference live)⟩
        exact absurd (plain _ mem) (by decide)

/-- Without stray colons, replacing the leaves of the tokens is redirecting the tree. -/
theorem Traced.rewrites {f : Redirection} (grid : f.StaysOnGrid) {qs : List Piece}
    {ts' : List Token} (h : Traced f qs ts ts') (noColon : .other ':' ∉ qs) :
    Rewrites (fun e e' => e.redirect f = e') ts ts' := by
  induction h with
  | finish => exact .finish
  | @plain t ps qs ts ts' live colon noReference _ _ _ ih =>
      have later := ih fun mem => noColon (List.mem_append_right ps mem)
      by_cases lost : t = .lost
      · subst lost
        exact Rewrites.leaf .lost .lost (by rw [Expr.redirect]) later
      · refine .solid ?_ later
        cases t <;> first | rfl | exact absurd rfl lost | exact absurd rfl colon |
          exact absurd rfl (noReference _) | cases live
  | colon => exact absurd List.mem_cons_self noColon
  | lone numbered _ _ ih =>
      obtain ⟨r, e, found, leaf, same⟩ := leaf_loneToken grid numbered
      exact .leaf (.lone found) leaf same (ih fun mem => noColon (List.mem_cons_of_mem _ mem))
  | @letterless s ps qs ts ts' numbered letters _ _ _ ih =>
      have leaf : Leaf [.reference (String.ofList s.chars)] .lost :=
        .lone (resolve_letterless numbered letters)
      exact .leaf leaf leaf (by rw [Expr.redirect])
        (ih fun mem => noColon (List.mem_append_right ps mem))
  | pair numbered _ numbered' _ _ ih =>
      obtain ⟨a, b, e, first, second, leaf, same⟩ := leaf_pairTokens grid numbered numbered'
      exact .leaf (.range first second) leaf same
        (ih fun mem => noColon (List.mem_cons_of_mem _ mem))

/-- Redirecting the text of a formula redirects its tree. -/
theorem parse_redirected {f : Redirection} (grid : f.StaysOnGrid) {text : String} {e : Expr}
    (h : parse text = .ok e) (lettered : ∀ t ∈ tokenize text, t.isLettered)
    (tight : TightColons text.toList) : parse (f.text text) = .ok (e.redirect f) := by
  rw [parse, f.tokenize_text]
  rw [parse, tokenize, tokens_body] at h
  rw [tokenize, tokens_body] at lettered
  have inside : TightColons (content text.toList) := by
    obtain ⟨front, blanks, same | ⟨same, -⟩⟩ := exists_content text.toList
    · generalize content text.toList = core at *
      rw [same] at tight
      exact (tight.behind (by rw [count_quotes_blanks blanks])).behind (l := ['=']) (by decide)
    · generalize content text.toList = core at *
      rw [same] at tight
      exact tight.behind (by rw [count_quotes_blanks blanks])
  have grouped := grouped_tokens h
  have traced := traced_tokens f _ grouped.readable
  have noColon := colon_not_mem_significant _ grouped lettered inside
  obtain ⟨e', parsed, rfl⟩ :=
    ofTokens_rewrites (Expr.congruence_redirect f) (traced.rewrites grid noColon) h
  exact parsed

/-! ### Copying a formula and editing lines -/

/-- Moving every reference by so many columns and rows, one end of a range like the other. -/
def shifting (cols rows : Int) : Redirection where
  lone r := r.offset cols rows
  pair a b := do return (← a.offset cols rows, ← b.offset cols rows)

/-- A reference that is fixed on both axes does not move anyway. -/
theorem copyReference_eq_offset (cols rows : Int) (r : Reference) :
    copyReference cols rows r = r.offset cols rows := by
  unfold copyReference
  split
  · next fixed =>
      obtain ⟨a, colFixed, rowFixed⟩ := r
      obtain ⟨rfl, rfl⟩ : colFixed = true ∧ rowFixed = true := by
        simpa [Reference.fullyFixed] using fixed
      rfl
  · rfl

theorem copying_eq_shifting (cols rows : Int) : copying cols rows = shifting cols rows := by
  have lone : copyReference cols rows = fun r => r.offset cols rows :=
    funext (copyReference_eq_offset cols rows)
  rw [copying, shifting, lone]
  congr 1
  funext a b
  dsimp only
  cases a.offset cols rows <;> cases b.offset cols rows <;> rfl

/-- Copying a formula moves every reference of its tree, and editing lines adjusts every one. A
reference that points nowhere afterwards is lost, and so is a range; nothing else changes. -/
theorem parse_copy_adjust (text : String) (e : Expr) (h : parse text = .ok e)
    (lettered : ∀ t ∈ tokenize text, t.isLettered) (tight : TightColons text.toList) :
    (∀ source target : Address, parse (copy text source target) =
      .ok (e.redirect (shifting ((target.col : Int) - source.col)
        ((target.row : Int) - source.row)))) ∧
    ∀ edit : LineEdit, parse (adjust text edit) = .ok (e.redirect (adjusting edit)) := by
  refine ⟨fun source target => ?_, fun edit => ?_⟩
  · rw [copy, parse_redirected (staysOnGrid_copying _ _) h lettered tight, copying_eq_shifting]
  · exact parse_redirected (staysOnGrid_adjusting edit) h lettered tight

/-- A formula with two branches. -/
def branches : String :=
  "=IF(A1>$B1,SUM(b2:$C$4),\"x : y\")"

theorem parse_copy_adjust_branches :
    parse (copy branches ⟨0, 0⟩ ⟨1, 2⟩) = .ok (.call "IF" [
      .binary .greater (.cell ⟨⟨1, 2⟩, false, false⟩) (.cell ⟨⟨1, 1⟩, true, false⟩),
      .call "SUM" [.range ⟨⟨2, 3⟩, false, false⟩ ⟨⟨3, 2⟩, true, true⟩],
      .text "x : y"]) ∧
    parse (adjust branches ⟨.row, .delete, 0⟩) = .ok (.call "IF" [
      .binary .greater .lost .lost,
      .call "SUM" [.range ⟨⟨0, 1⟩, false, false⟩ ⟨⟨3, 2⟩, true, true⟩],
      .text "x : y"]) := by
  have tokens : tokenize branches = [.function "IF", .leftParen, .reference "A1",
      .operator .greater, .reference "$B1", .comma, .function "SUM", .leftParen, .reference "b2",
      .colon, .reference "$C$4", .rightParen, .comma, .text "x : y", .rightParen, .finish] := by
    decide +kernel
  have tree : parse branches = .ok (.call "IF" [
      .binary .greater (.cell ⟨⟨0, 0⟩, false, false⟩) (.cell ⟨⟨0, 1⟩, true, false⟩),
      .call "SUM" [.range ⟨⟨1, 1⟩, false, false⟩ ⟨⟨3, 2⟩, true, true⟩],
      .text "x : y"]) := by
    rw [parse, tokens]
    rfl
  obtain ⟨copied, adjusted⟩ :=
    parse_copy_adjust branches _ tree (by decide +kernel) (by decide +kernel)
  constructor
  · have first : (shifting 2 1).lone ⟨⟨0, 0⟩, false, false⟩ = some ⟨⟨1, 2⟩, false, false⟩ := by
      decide
    have second : (shifting 2 1).lone ⟨⟨0, 1⟩, true, false⟩ = some ⟨⟨1, 1⟩, true, false⟩ := by
      decide
    have range : (shifting 2 1).pair ⟨⟨1, 1⟩, false, false⟩ ⟨⟨3, 2⟩, true, true⟩ =
        some (⟨⟨2, 3⟩, false, false⟩, ⟨⟨3, 2⟩, true, true⟩) := by decide
    rw [copied]
    simp [Expr.redirect, first, second, range]
  · have first : (adjusting ⟨.row, .delete, 0⟩).lone ⟨⟨0, 0⟩, false, false⟩ = none := by decide
    have second : (adjusting ⟨.row, .delete, 0⟩).lone ⟨⟨0, 1⟩, true, false⟩ = none := by decide
    have range : (adjusting ⟨.row, .delete, 0⟩).pair ⟨⟨1, 1⟩, false, false⟩ ⟨⟨3, 2⟩, true, true⟩ =
        some (⟨⟨0, 1⟩, false, false⟩, ⟨⟨3, 2⟩, true, true⟩) := by decide
    rw [adjusted]
    simp [Expr.redirect, first, second, range]

end Formula

end Spreadsheet
