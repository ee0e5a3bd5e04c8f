import Mathlib.Data.List.Chain
import Spreadsheet.Proofs.Formula.Commuting
import Spreadsheet.Proofs.Formula.Stepwise

/-!
# Ranges torn apart

The ends of a range are redirected on their own if blanks stand beside the colon, or if one of
them has no letters. When such an end points nowhere afterwards, a lost reference stands beside
the colon, and that is no formula. This is the only way in which redirecting can spoil a formula.
-/

namespace Spreadsheet.Formula

namespace Redirection

/-- Whether a piece is a lone reference that points nowhere after it is redirected. -/
def vanishes (f : Redirection) : Piece → Bool
  | .lone written =>
    match Reference.ofChars written with
    | .ok r => (f.lone r).isNone
    | .error _ => false
  | _ => false

/-- Whether one of two neighbouring pieces is a colon and the other one vanishes. -/
def tears (f : Redirection) (p q : Piece) : Bool :=
  (f.vanishes p && q == .other ':') || (p == .other ':' && f.vanishes q)

/-- Whether no lone reference beside a colon vanishes. Blanks do not count as pieces. -/
def KeepsRanges (f : Redirection) (cs : List Char) : Prop :=
  (significant cs).IsChain fun p q => f.tears p q = false

instance (f : Redirection) (cs : List Char) : Decidable (f.KeepsRanges cs) :=
  inferInstanceAs (Decidable ((significant cs).IsChain fun p q => f.tears p q = false))

end Redirection

variable {f : Redirection} {s : Spelling} {p q : Piece} {qs : List Piece} {ts ts' : List Token}

theorem vanishes_of_isPlain (h : p.isPlain) : f.vanishes p = false := by
  cases p with
  | quoted inner => rfl
  | lone written => cases h
  | pair first second => cases h
  | other c => rfl

theorem ne_colon_of_isPlain (h : p.isPlain) : p ≠ .other ':' := by
  rintro rfl
  cases h

theorem tears_eq_false_of_isPlain (h : p.isPlain) : f.tears p q = false := by
  simp [Redirection.tears, vanishes_of_isPlain h, ne_colon_of_isPlain h]

/-- Plain pieces in front of others tear nothing. -/
theorem isChain_plain_append {ps : List Piece} (plain : ∀ p ∈ ps, p.isPlain) :
    (ps ++ qs).IsChain (fun p q => f.tears p q = false) ↔
      qs.IsChain fun p q => f.tears p q = false := by
  induction ps with
  | nil => rfl
  | cons p ps ih =>
      rw [List.cons_append, List.isChain_cons, ih fun q hq => plain q (List.mem_cons_of_mem p hq)]
      exact and_iff_right fun q _ => tears_eq_false_of_isPlain (plain p List.mem_cons_self)

/-- The equals sign of a formula tears nothing, nor do the blanks in front of it. -/
theorem keepsRanges_content (f : Redirection) (cs : List Char) :
    f.KeepsRanges (content cs) ↔ f.KeepsRanges cs := by
  obtain ⟨front, blanks, text | ⟨text, -⟩⟩ := exists_content cs
  · generalize content cs = core at *
    have sign : significant (['='] ++ core) = [.other '='] ++ significant core :=
      significant_append_plain (pieces_sign (by decide) (by decide)) (by decide)
    rw [List.singleton_append] at sign
    rw [Redirection.KeepsRanges, Redirection.KeepsRanges, text, significant_blanks_append blanks,
      sign, isChain_plain_append (by decide)]
  · generalize content cs = core at *
    rw [Redirection.KeepsRanges, Redirection.KeepsRanges, text, significant_blanks_append blanks]

/-! ### Colons of a formula -/

/-- Whether a colon among two neighbouring tokens has a reference beside it. -/
def Framed (a b : Token) : Prop :=
  (b = .colon → ∃ w, a = .reference w) ∧ (a = .colon → ∃ w, b = .reference w)

theorem Grouped.framed (h : Grouped ts) : ts.IsChain Framed := by
  induction h with
  | finish => exact .singleton _
  | @solid t ts solid h ih =>
      refine ih.cons fun u hu => ⟨?_, ?_⟩
      · rintro rfl
        exact absurd hu h.head?_ne_colon
      · rintro rfl
        cases solid
  | @leaf xs ts e leaf h ih =>
      have first {t : Token} (ht : t ≠ .colon) : (t :: ts).IsChain Framed := by
        refine ih.cons fun u hu => ⟨?_, fun colon => absurd colon ht⟩
        rintro rfl
        exact absurd hu h.head?_ne_colon
      cases leaf with
      | lost => exact first (by simp)
      | lone => exact first (by simp)
      | range =>
          refine ((first (by simp)).cons_cons ?_).cons_cons ?_
          · exact ⟨nofun, fun _ => ⟨_, rfl⟩⟩
          · exact ⟨fun _ => ⟨_, rfl⟩, nofun⟩

theorem loneToken_of_vanishes {written : List Char} (h : f.vanishes (.lone written)) :
    f.loneToken written = .lost := by
  unfold Redirection.vanishes at h
  unfold Redirection.loneToken
  cases hread : Reference.ofChars written with
  | error cause =>
      simp only [hread] at h
      cases h
  | ok r =>
      simp only [hread] at h ⊢
      rw [Option.isNone_iff_eq_none.mp h]
      rfl

/-- A lone reference that does not vanish is a reference after it is redirected. -/
theorem loneToken_of_not_vanishes (grid : f.StaysOnGrid) (numbered : s.Numbered)
    (h : f.vanishes (.lone s.chars) = false) :
    ∃ w r, f.loneToken s.chars = .reference w ∧ resolve w = .ok r := by
  unfold Redirection.vanishes at h
  unfold Redirection.loneToken
  cases hread : Reference.ofChars s.chars with
  | error cause => exact ⟨_, none, rfl, resolve_of_error numbered hread⟩
  | ok r =>
      simp only [hread] at h ⊢
      obtain ⟨r', moved⟩ := Option.isSome_iff_exists.mp (Option.isNone_eq_false_iff.mp h)
      rw [moved]
      have onGrid := grid.lone (Reference.inGrid_of_ofChars hread) moved
      exact ⟨r'.text, some r', rfl, resolve_text onGrid⟩

/-! ### A formula again -/

/-- What the first piece of a text says about the first token of the redirected text. -/
theorem Traced.cons_cases (h : Traced f (p :: qs) ts ts') :
    p.isPlain ∨ (p = .other ':' ∧ ts'.head? = some .colon) ∨
      (∃ written, p = .lone written ∧ ts'.head? = some (f.loneToken written)) ∨
      ∃ first second, p = .pair first second := by
  have ofPlain {ps qs' : List Piece} (same : p :: qs = ps ++ qs') (nonempty : ps ≠ [])
      (plain : ∀ p ∈ ps, p.isPlain) : p.isPlain := by
    obtain ⟨q, ps, rfl⟩ := List.exists_cons_of_ne_nil nonempty
    cases same
    exact plain _ List.mem_cons_self
  generalize whole : p :: qs = ps at h
  cases h with
  | finish => cases whole
  | plain _ _ _ nonempty plain _ => exact .inl (ofPlain whole nonempty plain)
  | colon =>
      cases whole
      exact .inr (.inl ⟨rfl, rfl⟩)
  | lone =>
      cases whole
      exact .inr (.inr (.inl ⟨_, rfl, rfl⟩))
  | letterless _ _ nonempty plain _ => exact .inl (ofPlain whole nonempty plain)
  | pair =>
      cases whole
      exact .inr (.inr (.inr ⟨_, _, rfl⟩))

theorem Traced.head?_of_colon (h : Traced f (.other ':' :: qs) ts ts') :
    ts'.head? = some .colon := by
  rcases h.cons_cases with plain | ⟨-, head⟩ | ⟨written, same, -⟩ | ⟨first, second, same⟩
  · exact absurd rfl (ne_colon_of_isPlain plain)
  · exact head
  · cases same
  · cases same

theorem Traced.head?_of_vanishes (h : Traced f (p :: qs) ts ts') (vanishes : f.vanishes p) :
    ts'.head? = some .lost := by
  rcases h.cons_cases with plain | ⟨rfl, -⟩ | ⟨written, rfl, head⟩ | ⟨first, second, rfl⟩
  · rw [vanishes_of_isPlain plain] at vanishes
    cases vanishes
  · cases vanishes
  · rw [head, loneToken_of_vanishes vanishes]
  · cases vanishes

/-- If the new colons have references beside them, no end of a range has vanished. -/
theorem Traced.isChain (h : Traced f qs ts ts') (framed : ts'.IsChain Framed) :
    qs.IsChain fun p q => f.tears p q = false := by
  induction h with
  | finish => exact .nil
  | plain _ _ _ _ plain _ ih => exact (isChain_plain_append plain).mpr (ih framed.tail)
  | @colon qs ts ts' h ih =>
      refine (ih framed.tail).cons fun q hq => ?_
      obtain ⟨rest, rfl⟩ := List.head?_eq_some_iff.mp hq
      cases vanishes : f.vanishes q with
      | false =>
          have colon : f.vanishes (.other ':') = false := rfl
          simp [Redirection.tears, colon, vanishes]
      | true =>
          have head := h.head?_of_vanishes vanishes
          obtain ⟨w, same⟩ := (List.isChain_cons.mp framed).1 _ head |>.2 rfl
          cases same
  | @lone s qs ts ts' numbered _ h ih =>
      refine (ih framed.tail).cons fun q hq => ?_
      obtain ⟨rest, rfl⟩ := List.head?_eq_some_iff.mp hq
      by_cases tears : f.vanishes (.lone s.chars) ∧ q = .other ':'
      · obtain ⟨vanishes, rfl⟩ := tears
        have head := h.head?_of_colon
        obtain ⟨w, same⟩ := (List.isChain_cons.mp framed).1 _ head |>.1 rfl
        rw [loneToken_of_vanishes vanishes] at same
        cases same
      · simpa [Redirection.tears] using tears
  | letterless _ _ _ plain _ ih => exact (isChain_plain_append plain).mpr (ih framed.tail)
  | pair _ _ _ _ _ ih =>
      refine (ih (framed.right_of_append)).cons fun q _ => ?_
      simp [Redirection.tears, Redirection.vanishes]

theorem Traced.plain_inv {t : Token} (h : Traced f qs (t :: ts) ts')
    (noReference : ∀ w, t ≠ .reference w) (noColon : t ≠ .colon) (live : t.isEnd = false) :
    ∃ ps qs' us, qs = ps ++ qs' ∧ (∀ p ∈ ps, p.isPlain) ∧ ts' = t :: us ∧ Traced f qs' ts us := by
  cases h with
  | finish => cases live
  | plain _ _ _ _ plain h => exact ⟨_, _, _, rfl, plain, rfl, h⟩
  | colon => exact absurd rfl noColon
  | lone => exact absurd rfl (noReference _)
  | letterless => exact absurd rfl (noReference _)
  | pair => exact absurd rfl (noReference _)

theorem Traced.colon_inv (h : Traced f qs (.colon :: ts) ts') :
    ∃ qs' us, qs = .other ':' :: qs' ∧ ts' = .colon :: us ∧ Traced f qs' ts us := by
  cases h with
  | plain _ noColon => exact absurd rfl noColon
  | colon h => exact ⟨_, _, rfl, rfl, h⟩

/-- What becomes of a reference that is redirected on its own: it is a reference again, or it
vanishes. -/
inductive Single (f : Redirection) : List Piece → Token → Prop where
  | reference {ps : List Piece} {w : String} {r : Option Reference} : resolve w = .ok r →
      Single f ps (.reference w)
  | lost {p : Piece} : f.vanishes p → Single f [p] .lost

/-- A reference stands alone in the text, or it is the first end of a pair. -/
theorem Traced.reference_inv (grid : f.StaysOnGrid) {w : String}
    (h : Traced f qs (.reference w :: ts) ts') :
    (∃ ps qs' t us, qs = ps ++ qs' ∧ ts' = t :: us ∧ Single f ps t ∧ Traced f qs' ts us) ∨
    ∃ v qs' xs us us' e, ts = .colon :: .reference v :: us ∧ ts' = xs ++ us' ∧ Leaf xs e ∧
      (∃ p, qs = p :: qs') ∧ Traced f qs' us us' := by
  cases h with
  | plain _ _ noReference => exact absurd rfl (noReference _)
  | @lone s qs ts ts' numbered _ h =>
      left
      cases vanishes : f.vanishes (.lone s.chars) with
      | true =>
          have lost := loneToken_of_vanishes vanishes
          exact ⟨[.lone s.chars], qs, .lost, ts', rfl, by rw [lost], .lost vanishes, h⟩
      | false =>
          obtain ⟨w, r, same, hresolve⟩ := loneToken_of_not_vanishes grid numbered vanishes
          exact ⟨[.lone s.chars], qs, .reference w, ts', rfl, by rw [same], .reference hresolve, h⟩
  | letterless numbered letters _ _ h =>
      exact .inl ⟨_, _, _, _, rfl, rfl, .reference (resolve_letterless numbered letters), h⟩
  | pair numbered _ numbered' _ h =>
      obtain ⟨_, _, e, _, _, leaf, _⟩ := leaf_pairTokens grid numbered numbered'
      exact .inr ⟨_, _, _, _, _, e, rfl, rfl, leaf, ⟨_, rfl⟩, h⟩

/-- If no end of a range vanishes, the new tokens come from the old ones by replacing leaves. -/
theorem Traced.rewrites_of_isChain (grid : f.StaysOnGrid) (grouped : Grouped ts)
    (h : Traced f qs ts ts') (chain : qs.IsChain fun p q => f.tears p q = false) :
    Rewrites (fun e e' => e.skeleton = e'.skeleton) ts ts' := by
  have same {xs xs' : List Token} {e e' : Expr} (leaf : Leaf xs e) (leaf' : Leaf xs' e') :
      e.skeleton = e'.skeleton := leaf.skeleton_eq.trans leaf'.skeleton_eq.symm
  induction grouped generalizing qs ts' with
  | finish =>
      cases h with
      | finish => exact .finish
      | plain live => cases live
  | @solid t ts solid _ ih =>
      obtain ⟨ps, qs, us, rfl, -, rfl, behind⟩ := h.plain_inv
        (by rintro w rfl; cases solid) (by rintro rfl; cases solid) (by cases t <;> trivial)
      exact .solid solid (ih behind chain.right_of_append)
  | @leaf xs ts e leaf grouped ih =>
      cases leaf with
      | lost =>
          obtain ⟨ps, qs, us, rfl, -, rfl, behind⟩ := h.plain_inv (by simp) (by simp) rfl
          exact Rewrites.leaf .lost .lost rfl (ih behind chain.right_of_append)
      | lone hresolve =>
          rcases h.reference_inv grid with
            ⟨ps, qs, t, us, rfl, rfl, single, behind⟩ | ⟨v, -, -, us, -, -, rfl, -⟩
          · have later := ih behind chain.right_of_append
            cases single with
            | reference hresolve' =>
                have leaf' := Leaf.lone hresolve'
                exact .leaf (.lone hresolve) leaf' (same (.lone hresolve) leaf') later
            | lost => exact .leaf (.lone hresolve) .lost (same (.lone hresolve) .lost) later
          · exact absurd rfl grouped.head?_ne_colon
      | range hfirst hsecond =>
          rcases h.reference_inv grid with ⟨ps, qs, t, us, rfl, rfl, single, behind⟩ |
            ⟨v, qs, xs, us, us', e', same, rfl, new, ⟨p, rfl⟩, behind⟩
          · obtain ⟨qs, us, rfl, rfl, second⟩ := behind.colon_inv
            rcases second.reference_inv grid with
              ⟨ps', qs, t', us, rfl, rfl, single', behind⟩ | ⟨v, -, -, us, -, -, rfl, -⟩
            · have later := ih behind chain.right_of_append.tail.right_of_append
              -- Both ends are references again, or one of them would be torn off its colon.
              cases single with
              | lost vanishes =>
                  have torn := chain.rel
                  simp [Redirection.tears, vanishes] at torn
              | reference hresolve =>
                  cases single' with
                  | lost vanishes =>
                      have torn := chain.right_of_append.rel
                      simp [Redirection.tears, vanishes] at torn
                  | reference hresolve' =>
                      have leaf := Leaf.range hfirst hsecond
                      have leaf' := Leaf.range hresolve hresolve'
                      exact .leaf leaf leaf' (same leaf leaf') later
            · exact absurd rfl grouped.head?_ne_colon
          · cases same
            have leaf := Leaf.range hfirst hsecond
            exact .leaf leaf new (same leaf new) (ih behind chain.tail)

/-- If no range is torn apart, the redirected text of a formula is a formula, and only its
references are others. -/
theorem parse_redirected_of_keepsRanges (grid : f.StaysOnGrid) {text : String} {e : Expr}
    (h : parse text = .ok e) (keeps : f.KeepsRanges text.toList) :
    ∃ e', parse (f.text text) = .ok e' ∧ e.skeleton = e'.skeleton := by
  rw [parse, tokenize, tokens_body] at h
  have grouped := grouped_tokens h
  have traced := traced_tokens f _ grouped.readable
  rw [← keepsRanges_content] at keeps
  rw [parse, f.tokenize_text]
  exact ofTokens_rewrites Expr.congruence_skeleton
    (traced.rewrites_of_isChain grid grouped keeps) h

/-- If the redirected text of a formula is a formula, none of its ranges is torn apart. -/
theorem keepsRanges_of_parse_redirected {text : String} {e e' : Expr} (h : parse text = .ok e)
    (h' : parse (f.text text) = .ok e') : f.KeepsRanges text.toList := by
  rw [parse, tokenize, tokens_body] at h
  rw [parse, f.tokenize_text] at h'
  have traced := traced_tokens f _ (grouped_tokens h).readable
  rw [← keepsRanges_content]
  exact traced.isChain (grouped_tokens h').framed

/-- The redirected text of a formula is a formula exactly if none of its ranges is torn apart. -/
theorem parse_redirected_iff (grid : f.StaysOnGrid) {text : String} {e : Expr}
    (h : parse text = .ok e) :
    (∃ e', parse (f.text text) = .ok e') ↔ f.KeepsRanges text.toList := by
  constructor
  · rintro ⟨e', h'⟩
    exact keepsRanges_of_parse_redirected h h'
  · intro keeps
    obtain ⟨e', h', -⟩ := parse_redirected_of_keepsRanges grid h keeps
    exact ⟨e', h'⟩

theorem skeleton_redirected (grid : f.StaysOnGrid) {text : String} {e e' : Expr}
    (h : parse text = .ok e) (h' : parse (f.text text) = .ok e') : e.skeleton = e'.skeleton := by
  obtain ⟨e'', h'', same⟩ :=
    parse_redirected_of_keepsRanges grid h (keepsRanges_of_parse_redirected h h')
  rw [h'] at h''
  cases h''
  exact same

/-! ### One redirection behind another one -/

variable {g : Redirection} {cs : List Char}

theorem vanishes_andThen (h : f.vanishes p) : (f.andThen g).vanishes p := by
  cases p with
  | quoted inner => cases h
  | other c => cases h
  | pair first second => cases h
  | lone written =>
      unfold Redirection.vanishes at h ⊢
      cases read : Reference.ofChars written with
      | error cause =>
          simp only [read] at h
          cases h
      | ok r =>
          simp only [read, Option.isNone_iff_eq_none] at h
          simp [read, Redirection.andThen, h]

/-- Ranges that are kept by two steps are kept by the first one. -/
theorem Redirection.KeepsRanges.of_andThen (h : (f.andThen g).KeepsRanges cs) : f.KeepsRanges cs := by
  refine List.IsChain.imp (fun p q kept => ?_) h
  simp only [Redirection.tears, Bool.or_eq_false_iff, Bool.and_eq_false_iff] at kept ⊢
  have vanishes (p : Piece) (h : (f.andThen g).vanishes p = false) : f.vanishes p = false :=
    Bool.eq_false_iff.mpr fun gone => Bool.eq_false_iff.mp h (vanishes_andThen gone)
  exact ⟨kept.1.imp_left (vanishes p), kept.2.imp_right (vanishes q)⟩

/-- If a formula is left after two steps, one is left in between. -/
theorem exists_parse_of_andThen (grid : f.StaysOnGrid) {text : String} {e e' : Expr}
    (h : parse text = .ok e) (h' : parse ((f.andThen g).text text) = .ok e') :
    ∃ e'', parse (f.text text) = .ok e'' :=
  (parse_redirected_iff grid h).mpr (Redirection.KeepsRanges.of_andThen
    (keepsRanges_of_parse_redirected h h'))

end Spreadsheet.Formula
