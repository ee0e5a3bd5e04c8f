import Spreadsheet.Proofs.Formula.Grammar
import Spreadsheet.Proofs.Formula.Leaves
import Spreadsheet.Proofs.Reference.Grammar

/-!
# Places of a text and leaves of its tree

The operands that are written in a formula, constants and references, stand at certain places of its
text, and its tree has a leaf for each of them, in the same order. What a leaf is depends on nothing
but what is written at its place: a constant becomes itself, and a reference becomes a lost one
exactly if it leads nowhere.

All that is written as a reference ends in digits, but it need not have letters. Digits behind
dollar signs only are a reference for the tokens and lead nowhere, as if they were off the grid.
-/

namespace Spreadsheet

/-! ### What leads nowhere -/

namespace Spelling

/-- Whether the column or the row is none of the grid. There is no row 0. -/
def OffGrid (s : Spelling) : Prop :=
  maxCols < Column.value s.letters ∨ Nat.ofDigitChars 10 s.digits 0 = 0 ∨
    maxRows < Nat.ofDigitChars 10 s.digits 0

/-- Whether a spelling is read as a reference to no cell. -/
def LeadsNowhere (s : Spelling) : Prop :=
  s.letters = [] ∨ s.OffGrid

instance (s : Spelling) : Decidable s.LeadsNowhere :=
  inferInstanceAs (Decidable (_ = _ ∨ _ < _ ∨ _ = _ ∨ _ < _))

variable {s : Spelling} {r : Reference}

theorem Names.not_leadsNowhere (h : s.Names r) (onGrid : r.InGrid) : ¬ s.LeadsNowhere := by
  have hcol := onGrid.col
  have hrow := onGrid.row
  have := h.col
  have := h.row
  rintro (none | off | off | off)
  · exact h.letters_ne_nil none
  all_goals omega

theorem Numbered.exists_names (h : s.Numbered) (leads : ¬ s.LeadsNowhere) :
    ∃ r : Reference, r.InGrid ∧ s.Names r := by
  simp only [LeadsNowhere, OffGrid, not_or, Nat.not_lt] at leads
  obtain ⟨letters, onGrid, positive, onGrid'⟩ := leads
  have first : 1 ≤ Column.value s.letters := by
    obtain ⟨c, cs, same⟩ := List.exists_cons_of_ne_nil letters
    have digit := (Column.letter_digit (h.letters c (by simp [same]))).1
    have grows := Column.le_foldl cs (0 * 26 + Column.digit c)
    rw [same, Column.value, List.foldl_cons]
    omega
  refine ⟨⟨⟨Nat.ofDigitChars 10 s.digits 0 - 1, Column.value s.letters - 1⟩, s.colFixed,
    s.rowFixed⟩, ⟨?_, ?_⟩, letters, h.letters, h.digits_ne_nil, h.digits, ?_, ?_, rfl, rfl⟩ <;>
    dsimp only <;> omega

theorem Numbered.ofChars_eq_ok_iff (h : s.Numbered) :
    Reference.ofChars s.chars = .ok r ↔ r.InGrid ∧ s.Names r := by
  have noBlank (c : Char) (hc : c ∈ s.chars) : ¬ Text.isBlank c :=
    (of_mem_chars h.letters h.digits hc).1
  rw [Reference.ofChars_eq_ok_iff, Text.trim_eq_self noBlank]
  constructor
  · rintro ⟨onGrid, s', same, names⟩
    have split : split (s.chars ++ []) = (s, []) := h.split_append (by simp)
    have split' : Spelling.split (s'.chars ++ []) = (s', []) :=
      names.numbered.split_append (by simp)
    rw [same, split'] at split
    cases split
    exact ⟨onGrid, names⟩
  · exact fun ⟨onGrid, names⟩ => ⟨onGrid, s, rfl, names⟩

/-- The grid ends with column `XFD`. -/
example : ¬ LeadsNowhere ⟨false, ['x', 'f', 'd'], true, ['0', '9']⟩ ∧
    LeadsNowhere ⟨false, ['X', 'F', 'E'], false, ['9']⟩ := by decide

end Spelling

/-- The constants and references of a formula, from left to right. -/
def Expr.leaves : Expr → List Expr
  | .number n => [.number n]
  | .text s => [.text s]
  | .boolean b => [.boolean b]
  | .cell r => [.cell r]
  | .range first second => [.range first second]
  | .lost => [.lost]
  | .binary _ left right => left.leaves ++ right.leaves
  | .negate operand => operand.leaves
  | .call _ args => args.flatMap leaves

namespace Formula

/-- What is written at a place of a stream at which there is an operand. -/
inductive Site where
  | number (n : Float)
  | text (s : String)
  | boolean (b : Bool)
  /-- A reference that is written as a lost one. -/
  | lost
  | lone (written : String)
  | range (first second : String)

/-- The places of operands in a stream, in their order. -/
def sites : List Token → List Site
  | .reference first :: .colon :: .reference second :: ts => .range first second :: sites ts
  | .reference written :: ts => .lone written :: sites ts
  | .number n :: ts => .number n :: sites ts
  | .text s :: ts => .text s :: sites ts
  | .boolean b :: ts => .boolean b :: sites ts
  | .lost :: ts => .lost :: sites ts
  | _ :: ts => sites ts
  | [] => []

/-- What a place of a text becomes in the tree of the formula. -/
inductive Site.Becomes : Site → Expr → Prop where
  | number (n : Float) : Becomes (.number n) (.number n)
  | text (s : String) : Becomes (.text s) (.text s)
  | boolean (b : Bool) : Becomes (.boolean b) (.boolean b)
  | lost : Becomes .lost .lost
  | cell {s : Spelling} {r : Reference} : s.Numbered → ¬ s.LeadsNowhere → s.Names r →
      Becomes (.lone (String.ofList s.chars)) (.cell r)
  | lostCell {s : Spelling} : s.Numbered → s.LeadsNowhere →
      Becomes (.lone (String.ofList s.chars)) .lost
  | range {s s' : Spelling} {r r' : Reference} : s.Numbered → s'.Numbered → ¬ s.LeadsNowhere →
      ¬ s'.LeadsNowhere → s.Names r → s'.Names r' →
      Becomes (.range (String.ofList s.chars) (String.ofList s'.chars)) (.range r r')
  | lostRange {s s' : Spelling} : s.Numbered → s'.Numbered → s.LeadsNowhere ∨ s'.LeadsNowhere →
      Becomes (.range (String.ofList s.chars) (String.ofList s'.chars)) .lost

variable {t : Token} {ts us : List Token} {s : Spelling} {r : Reference} {cs : List Char}
  {w : String} {e : Expr}

/-! ### Places of a stream -/

/-- A token that is no part of a reference separates the places in front of it from the rest. -/
theorem sites_append (apart : t.isSolid ∨ t = .finish) (us : List Token) :
    sites (ts ++ t :: us) = sites ts ++ sites (t :: us) := by
  induction ts using sites.induct with
  | case1 first second ts ih => simpa [sites] using ih
  | case2 written ts noRange ih =>
      rw [List.cons_append, sites, sites, ih, List.cons_append]
      · exact noRange
      · -- Neither the colon of a range nor its other end can be the separating token.
        intro second behind same
        rcases ts with _ | ⟨u, _ | ⟨v, ts⟩⟩
        · cases same
          simp [Token.isSolid] at apart
        · cases same
          simp [Token.isSolid] at apart
        · cases same
          exact noRange _ _ rfl
  | case3 n ts ih => simpa [sites] using ih
  | case4 s ts ih => simpa [sites] using ih
  | case5 b ts ih => simpa [sites] using ih
  | case6 ts ih => simpa [sites] using ih
  | case7 u ts _ noReference noNumber noText noBoolean noLost ih =>
      cases u with
      | reference w => exact absurd rfl (noReference w)
      | number n => exact absurd rfl (noNumber n)
      | text s => exact absurd rfl (noText s)
      | boolean b => exact absurd rfl (noBoolean b)
      | lost => exact absurd rfl noLost
      | _ => exact ih
  | case8 => rfl

theorem sites_finish : sites (ts ++ [.finish]) = sites ts :=
  (sites_append (.inr rfl) []).trans (List.append_nil _)

theorem sites_parens : sites (.leftParen :: (ts ++ [.rightParen])) = sites ts :=
  (sites_append (.inl rfl) []).trans (List.append_nil _)

theorem sites_call (name : String) :
    sites (.function name :: .leftParen :: (ts ++ [.rightParen])) = sites ts :=
  sites_parens

/-- The number at a place is a token of the stream. -/
theorem number_mem_of_sites {n : Float} (h : .number n ∈ sites ts) : .number n ∈ ts := by
  induction ts using sites.induct with
  | case8 => cases h
  | _ => grind [sites]

/-! ### Places and leaves -/

/-- What is read as a lost reference leads nowhere. -/
theorem Names.leadsNowhere (h : Names (String.ofList s.chars) none) (numbered : s.Numbered) :
    s.LeadsNowhere := by
  obtain ⟨⟩ := h
  next cause failed _ =>
  rw [Reference.ofText, String.toList_ofList] at failed
  by_contra leads
  obtain ⟨r, found⟩ := numbered.exists_names leads
  rw [numbered.ofChars_eq_ok_iff.mpr found] at failed
  cases failed

/-- What is read as a reference leads to its cell. -/
theorem Names.leads (h : Names (String.ofList s.chars) (some r)) (numbered : s.Numbered) :
    ¬ s.LeadsNowhere ∧ s.Names r := by
  obtain ⟨⟩ := h
  next found =>
  rw [Reference.ofText, String.toList_ofList] at found
  obtain ⟨onGrid, names⟩ := numbered.ofChars_eq_ok_iff.mp found
  exact ⟨names.not_leadsNowhere onGrid, names⟩

/-- The leaves of the formulas of a word. -/
def Category.leaves : Category → List Expr
  | level _ e => e.leaves
  | primary e => e.leaves
  | arguments args => args.flatMap Expr.leaves

/-- The places of a word become the leaves of its formula, in the same order. -/
theorem Spells.becomes {c : Category} (h : Spells ts c)
    (written : ∀ w, .reference w ∈ ts → ∃ s : Spelling, s.Numbered ∧ w = String.ofList s.chars) :
    List.Forall₂ Site.Becomes (sites ts) c.leaves := by
  induction h with
  | @binary n op left right ts us _ _ _ hleft hright =>
      rw [sites_append (.inl rfl), Category.leaves, Expr.leaves]
      exact List.rel_append (hleft fun w hw => written w (by simp [hw]))
        (hright fun w hw => written w (by simp [hw]))
  | tighter _ ih => exact ih written
  | primary _ ih => exact ih written
  | number n =>
      rw [Category.leaves, Expr.leaves]
      exact .cons (.number n) .nil
  | text s =>
      rw [Category.leaves, Expr.leaves]
      exact .cons (.text s) .nil
  | boolean b =>
      rw [Category.leaves, Expr.leaves]
      exact .cons (.boolean b) .nil
  | lost =>
      rw [Category.leaves, Expr.leaves]
      exact .cons .lost .nil
  | @cell w r named =>
      obtain ⟨s, numbered, rfl⟩ := written w (by simp)
      obtain ⟨leads, names⟩ := named.leads numbered
      rw [Category.leaves, Expr.leaves]
      exact .cons (.cell numbered leads names) .nil
  | @lostCell w named =>
      obtain ⟨s, numbered, rfl⟩ := written w (by simp)
      rw [Category.leaves, Expr.leaves]
      exact .cons (.lostCell numbered (named.leadsNowhere numbered)) .nil
  | @range first second a b named named' =>
      obtain ⟨s, numbered, rfl⟩ := written first (by simp)
      obtain ⟨s', numbered', rfl⟩ := written second (by simp)
      obtain ⟨leads, names⟩ := named.leads numbered
      obtain ⟨leads', names'⟩ := named'.leads numbered'
      rw [Category.leaves, Expr.leaves]
      exact .cons (.range numbered numbered' leads leads' names names') .nil
  | @lostRange first second a b named named' lost =>
      obtain ⟨s, numbered, rfl⟩ := written first (by simp)
      obtain ⟨s', numbered', rfl⟩ := written second (by simp)
      have nowhere : s.LeadsNowhere ∨ s'.LeadsNowhere := by
        rcases lost with rfl | rfl
        · exact .inl (named.leadsNowhere numbered)
        · exact .inr (named'.leadsNowhere numbered')
      rw [Category.leaves, Expr.leaves]
      exact .cons (.lostRange numbered numbered' nowhere) .nil
  | emptyCall name =>
      rw [Category.leaves, Expr.leaves]
      exact .nil
  | call _ ih =>
      rw [sites_call, Category.leaves, Expr.leaves]
      exact ih fun w hw => written w (by simp [hw])
  | parens _ ih =>
      rw [sites_parens]
      exact ih fun w hw => written w (by simp [hw])
  | negate _ ih =>
      rw [Category.leaves, Expr.leaves]
      exact ih fun w hw => written w (by simp [hw])
  | last _ ih =>
      rw [Category.leaves, List.flatMap_singleton]
      exact ih written
  | comma _ _ ih ih' =>
      rw [sites_append (.inl rfl), Category.leaves, List.flatMap_cons]
      exact List.rel_append (ih fun w hw => written w (by simp [hw]))
        (ih' fun w hw => written w (by simp [hw]))

/-- What is written as a reference in a formula ends in digits. -/
theorem exists_numbered_of_mem_tokens (readable : ∀ t ∈ tokens cs, t.Readable)
    (h : .reference w ∈ tokens cs) :
    ∃ s : Spelling, s.Numbered ∧ w = String.ofList s.chars := by
  induction cs using lexeme_induction with
  | ends cs ends =>
      rw [tokens_of_isEnd ends, List.mem_singleton] at h
      rw [← h] at ends
      cases ends
  | @live t front l rest live blanks lexeme ih =>
      rw [tokens_lexeme live blanks lexeme] at readable h
      rcases List.mem_cons.mp h with rfl | behind
      · obtain ⟨r, hresolve⟩ := readable _ List.mem_cons_self
        obtain ⟨s, same, -, numbered, -⟩ := exists_numbered lexeme hresolve
        exact ⟨s, numbered, same⟩
      · exact ih rest (List.suffix_refl rest)
          (fun t ht => readable t (List.mem_cons_of_mem _ ht)) behind

/-- In a formula all that is written as a reference ends in digits. -/
theorem exists_numbered_of_parse {text : String} (h : parse text = .ok e)
    (hw : .reference w ∈ tokenize text) :
    ∃ s : Spelling, s.Numbered ∧ w = String.ofList s.chars :=
  exists_numbered_of_mem_tokens (grouped_tokens h).readable hw

/-- The places of a text become the leaves of its tree, in the same order. -/
theorem sites_become {text : String} (h : parse text = .ok e) :
    List.Forall₂ Site.Becomes (sites (tokenize text)) e.leaves := by
  obtain ⟨ts, whole, spelled⟩ := derives_iff_spells.mp (ofTokens_tokens_eq_ok_iff.mp h)
  rw [tokenize, whole, sites_finish]
  refine spelled.becomes fun w hw => exists_numbered_of_parse h ?_
  rw [tokenize, whole]
  simp [hw]

/-- The numbers of a tree are written in its text. -/
theorem number_mem_of_leaves {text : String} {n : Float} (h : parse text = .ok e)
    (hn : .number n ∈ e.leaves) : .number n ∈ tokenize text := by
  have leaves := sites_become h
  apply number_mem_of_sites
  generalize sites (tokenize text) = places at *
  generalize e.leaves = es at *
  induction leaves with
  | nil => cases hn
  | cons becomes _ ih =>
      rcases List.mem_cons.mp hn with rfl | hn
      · cases becomes
        exact List.mem_cons_self
      · exact List.mem_cons_of_mem _ (ih hn)

/-- In a formula all that is written as a reference ends in digits, and it becomes a lost reference
exactly if it has no letters or lies off the grid; a range is lost exactly if one of its ends is. -/
theorem becomes_of_parse {text : String} (h : parse text = .ok e) :
    (∀ w, .reference w ∈ tokenize text →
      ∃ s : Spelling, s.Numbered ∧ w = String.ofList s.chars) ∧
    List.Forall₂ Site.Becomes (sites (tokenize text)) e.leaves :=
  ⟨fun _ hw => exists_numbered_of_parse h hw, sites_become h⟩

/-- A range with an end off the grid, a reference in lower case and one without letters. -/
def mixedReferences : String :=
  "=SUM(A1:XFE2)+$a$2+$3"

/-- The first and the last place are lost, each for a reason of its own. -/
theorem becomes_of_parse_mixedReferences :
    parse mixedReferences = .ok (.binary .add (.binary .add (.call "SUM" [.lost])
      (.cell ⟨⟨1, 0⟩, true, true⟩)) .lost) ∧
    List.Forall₂ Site.Becomes [.range "A1" "XFE2", .lone "$a$2", .lone "$3"]
      [.lost, .cell ⟨⟨1, 0⟩, true, true⟩, .lost] := by
  have tokens : tokenize mixedReferences = [.function "SUM", .leftParen, .reference "A1", .colon,
      .reference "XFE2", .rightParen, .operator .add, .reference "$a$2", .operator .add,
      .reference "$3", .finish] := by decide +kernel
  have tree : parse mixedReferences = .ok (.binary .add (.binary .add (.call "SUM" [.lost])
      (.cell ⟨⟨1, 0⟩, true, true⟩)) .lost) := by
    rw [parse, tokens]
    rfl
  obtain ⟨-, leaves⟩ := becomes_of_parse tree
  simp only [tokens, sites, Expr.leaves, List.flatMap_singleton,
    List.singleton_append] at leaves
  exact ⟨tree, leaves⟩

/-- Not all that is read as a reference has letters: `$1` is accepted, and is lost. -/
theorem not_letters_of_parse :
    ¬ ∀ text e, parse text = .ok e → ∀ w, .reference w ∈ tokenize text →
      ∃ s : Spelling, s.letters ≠ [] ∧ (∀ c ∈ s.letters, c.isAlpha) ∧ s.digits ≠ [] ∧
        (∀ c ∈ s.digits, c.isDigit) ∧ w = String.ofList s.chars := by
  intro claim
  have tokens : tokenize "=$1" = [.reference "$1", .finish] := by decide +kernel
  have tree : parse "=$1" = .ok .lost := by
    rw [parse, tokens]
    rfl
  obtain ⟨s, some, letters, -, -, same⟩ := claim "=$1" .lost tree "$1" (by simp [tokens])
  have chars : s.chars = ['$', '1'] := by
    rw [← String.toList_ofList (l := s.chars), ← same]
    rfl
  obtain ⟨c, hc⟩ := List.exists_mem_of_ne_nil _ some
  have alpha := letters c hc
  have mem : c ∈ s.chars := by simp [Spelling.chars, hc]
  rw [chars] at mem
  rcases List.mem_cons.mp mem with rfl | mem
  · exact absurd alpha (by decide)
  · cases List.mem_singleton.mp mem
    exact absurd alpha (by decide)

end Formula

end Spreadsheet
