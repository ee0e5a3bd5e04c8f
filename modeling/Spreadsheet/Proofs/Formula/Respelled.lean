import Mathlib.Data.List.Infix
import Spreadsheet.Proofs.Formula.Leaves

/-!
# Formulas with references spelled anew

A redirection spells every reference anew, even one that does not move. If all references of a
formula stay where they are, nothing but their spelling changes: case, zeros in front of a row, and
so on. The new text is read as the same formula.
-/

namespace Spreadsheet

open Formula

/-- Whether two tokens are the same, up to the spelling of a reference. -/
inductive Token.SameMeaning : Token → Token → Prop where
  | refl (t : Token) : SameMeaning t t
  | reference {w w' : String} : resolve w' = resolve w → SameMeaning (.reference w) (.reference w')

theorem Expr.congruence_eq : Expr.Congruence fun e e' => e = e' where
  number _ := rfl
  text _ := rfl
  boolean _ := rfl
  binary hleft hright := by rw [hleft, hright]
  negate h := by rw [h]
  call {name args args'} h := by
    have same : args = args' := by
      rw [← List.forall₂_eq_eq_eq]
      exact h
    rw [same]

namespace Formula

variable {f : Redirection} {t : Token} {ts ts' xs us : List Token} {e : Expr} {qs : List Piece}
  {s s' : Spelling}

/-! ### Leaves -/

/-- A token with the same meaning as one that is no reference is that token. -/
theorem eq_of_sameMeaning {t' : Token} (h : t.SameMeaning t') (noReference : ∀ w, t ≠ .reference w) :
    t' = t := by
  cases h with
  | refl => rfl
  | reference => exact absurd rfl (noReference _)

theorem exists_of_sameMeaning {w : String} {t' : Token} (h : (Token.reference w).SameMeaning t') :
    ∃ w', t' = .reference w' ∧ resolve w' = resolve w := by
  cases h with
  | refl => exact ⟨w, rfl, rfl⟩
  | reference same => exact ⟨_, rfl, same⟩

/-- A leaf is the same leaf in another spelling. -/
theorem Leaf.respelled (leaf : Leaf xs e) (h : List.Forall₂ Token.SameMeaning (xs ++ ts) us) :
    ∃ xs' ts', us = xs' ++ ts' ∧ Leaf xs' e ∧ List.Forall₂ Token.SameMeaning ts ts' := by
  cases leaf with
  | lost =>
      obtain ⟨t, us, same, behind, rfl⟩ := List.forall₂_cons_left_iff.mp h
      cases eq_of_sameMeaning same (by simp)
      exact ⟨[.lost], us, rfl, .lost, behind⟩
  | lone hresolve =>
      obtain ⟨t, us, same, behind, rfl⟩ := List.forall₂_cons_left_iff.mp h
      obtain ⟨w, rfl, alike⟩ := exists_of_sameMeaning same
      exact ⟨[.reference w], us, rfl, .lone (alike.trans hresolve), behind⟩
  | range hfirst hsecond =>
      obtain ⟨t, _, same, tail, rfl⟩ := List.forall₂_cons_left_iff.mp h
      obtain ⟨between, _, same', tail', rfl⟩ := List.forall₂_cons_left_iff.mp tail
      obtain ⟨t', us, same'', behind, rfl⟩ := List.forall₂_cons_left_iff.mp tail'
      obtain ⟨w, rfl, alike⟩ := exists_of_sameMeaning same
      obtain ⟨w', rfl, alike'⟩ := exists_of_sameMeaning same''
      cases eq_of_sameMeaning same' (by simp)
      exact ⟨[.reference w, .colon, .reference w'], us, rfl,
        .range (alike.trans hfirst) (alike'.trans hsecond), behind⟩

/-- Other spellings replace leaves by the same leaves. -/
theorem Grouped.rewrites_of_forall₂ (grouped : Grouped ts)
    (h : List.Forall₂ Token.SameMeaning ts ts') : Rewrites (fun e e' => e = e') ts ts' := by
  induction grouped generalizing ts' with
  | finish =>
      obtain ⟨t, us, same, behind, rfl⟩ := List.forall₂_cons_left_iff.mp h
      cases eq_of_sameMeaning same (by simp)
      cases behind
      exact .finish
  | @solid t ts solid _ ih =>
      obtain ⟨t', us, same, behind, rfl⟩ := List.forall₂_cons_left_iff.mp h
      cases eq_of_sameMeaning same (by rintro w rfl; cases solid)
      exact .solid solid (ih behind)
  | leaf leaf _ ih =>
      obtain ⟨xs', us, rfl, leaf', behind⟩ := leaf.respelled h
      exact .leaf leaf leaf' rfl (ih behind)

/-! ### Written references -/

/-- The references on the grid that a stream is written with. -/
def writtenReferences (ts : List Token) : List Reference :=
  ts.filterMap fun t =>
    match t with
    | .reference w => (Reference.ofText w).toOption
    | _ => none

/-- The range in front of a stream, if both of its ends lie on the grid. -/
def writtenRange? : List Token → Option (Reference × Reference)
  | .reference v :: .colon :: .reference w :: _ =>
    match Reference.ofText v, Reference.ofText w with
    | .ok a, .ok b => some (a, b)
    | _, _ => none
  | _ => none

/-- The ranges on the grid that a stream is written with. -/
def writtenRanges (ts : List Token) : List (Reference × Reference) :=
  ts.tails.filterMap writtenRange?

theorem mem_writtenReferences {r : Reference} :
    r ∈ writtenReferences ts ↔ ∃ w, .reference w ∈ ts ∧ Reference.ofText w = .ok r := by
  simp only [writtenReferences, List.mem_filterMap]
  constructor
  · rintro ⟨t, mem, found⟩
    split at found
    · next w =>
        cases read : Reference.ofText w with
        | error cause =>
            rw [read] at found
            cases found
        | ok r' =>
            rw [read] at found
            cases found
            exact ⟨w, mem, read⟩
    · cases found
  · rintro ⟨w, mem, read⟩
    exact ⟨_, mem, by simp only [read]; rfl⟩

theorem mem_writtenRanges {a b : Reference} : (a, b) ∈ writtenRanges ts ↔
    ∃ v w us, .reference v :: .colon :: .reference w :: us <:+ ts ∧ Reference.ofText v = .ok a ∧
      Reference.ofText w = .ok b := by
  simp only [writtenRanges, List.mem_filterMap, List.mem_tails]
  constructor
  · rintro ⟨us, suffix, found⟩
    unfold writtenRange? at found
    split at found
    · next v w us =>
        split at found
        · next first second =>
            cases found
            exact ⟨v, w, us, suffix, first, second⟩
        · cases found
    · cases found
  · rintro ⟨v, w, us, suffix, first, second⟩
    exact ⟨_, suffix, by simp only [writtenRange?, first, second]⟩

/-- The ends of a range are references, too. -/
theorem ends_mem_writtenReferences {ends : Reference × Reference} (h : ends ∈ writtenRanges ts) :
    ends.1 ∈ writtenReferences ts ∧ ends.2 ∈ writtenReferences ts := by
  obtain ⟨v, w, us, suffix, first, second⟩ := mem_writtenRanges.mp h
  rw [mem_writtenReferences, mem_writtenReferences]
  exact ⟨⟨v, suffix.mem (by simp), first⟩, ⟨w, suffix.mem (by simp), second⟩⟩

/-! ### References that stay -/

/-- Whether a redirection takes every reference to itself that a stream is written with, and every
range. An end of a range counts on its own as well, because it is redirected on its own if blanks
stand beside the colon. -/
structure Redirection.Fixes (f : Redirection) (ts : List Token) : Prop where
  lone : ∀ r ∈ writtenReferences ts, f.lone r = some r
  pair : ∀ ends ∈ writtenRanges ts, f.pair ends.1 ends.2 = some ends

theorem Redirection.Fixes.behind (h : f.Fixes ts) (suffix : us <:+ ts) : f.Fixes us where
  lone r mem := by
    obtain ⟨w, mem, read⟩ := mem_writtenReferences.mp mem
    exact h.lone r (mem_writtenReferences.mpr ⟨w, suffix.mem mem, read⟩)
  pair ends mem := by
    obtain ⟨v, w, vs, suffix', first, second⟩ := mem_writtenRanges.mp mem
    exact h.pair ends (mem_writtenRanges.mpr ⟨v, w, vs, suffix'.trans suffix, first, second⟩)

theorem ofText_ofList (cs : List Char) :
    Reference.ofText (String.ofList cs) = Reference.ofChars cs := by
  rw [Reference.ofText, String.toList_ofList]

/-- A reference that is written back has the meaning of the text that it is read from. -/
theorem resolve_text_of_ofChars {cs : List Char} {r : Reference}
    (read : Reference.ofChars cs = .ok r) : resolve r.text = resolve (String.ofList cs) := by
  rw [resolve_text (Reference.inGrid_of_ofChars read), resolve_of_ok read]

theorem Redirection.Fixes.loneToken (h : f.Fixes (.reference (String.ofList s.chars) :: ts)) :
    (Token.reference (String.ofList s.chars)).SameMeaning (f.loneToken s.chars) := by
  unfold Redirection.loneToken
  cases read : Reference.ofChars s.chars with
  | error cause => exact .refl _
  | ok r =>
      have stays : f.lone r = some r := h.lone r
        (mem_writtenReferences.mpr ⟨_, List.mem_cons_self, (ofText_ofList _).trans read⟩)
      simp only [stays, Option.elim_some]
      exact .reference (resolve_text_of_ofChars read)

theorem Redirection.Fixes.pairTokens (h : f.Fixes (.reference (String.ofList s.chars) :: .colon ::
      .reference (String.ofList s'.chars) :: ts)) (rest : List.Forall₂ Token.SameMeaning ts us) :
    List.Forall₂ Token.SameMeaning (.reference (String.ofList s.chars) :: .colon ::
      .reference (String.ofList s'.chars) :: ts) (f.pairTokens s.chars s'.chars ++ us) := by
  unfold Redirection.pairTokens
  cases read : Reference.ofChars s.chars with
  | error cause => exact .cons (.refl _) (.cons (.refl _) (.cons (.refl _) rest))
  | ok a =>
      cases read' : Reference.ofChars s'.chars with
      | error cause => exact .cons (.refl _) (.cons (.refl _) (.cons (.refl _) rest))
      | ok b =>
          have stays : f.pair a b = some (a, b) := h.pair (a, b) (mem_writtenRanges.mpr
            ⟨_, _, ts, List.suffix_rfl, (ofText_ofList _).trans read,
              (ofText_ofList _).trans read'⟩)
          simp only [stays, Option.elim_some]
          exact .cons (.reference (resolve_text_of_ofChars read)) (.cons (.refl _)
            (.cons (.reference (resolve_text_of_ofChars read')) rest))

theorem Traced.sameMeaning (h : Traced f qs ts ts') (fixes : f.Fixes ts) :
    List.Forall₂ Token.SameMeaning ts ts' := by
  induction h with
  | finish => exact .cons (.refl _) .nil
  | plain _ _ _ _ _ _ ih => exact .cons (.refl _) (ih (fixes.behind (List.suffix_cons _ _)))
  | colon _ ih => exact .cons (.refl _) (ih (fixes.behind (List.suffix_cons _ _)))
  | lone _ _ _ ih => exact .cons fixes.loneToken (ih (fixes.behind (List.suffix_cons _ _)))
  | letterless _ _ _ _ _ ih => exact .cons (.refl _) (ih (fixes.behind (List.suffix_cons _ _)))
  | @pair s s' qs ts ts' _ _ _ _ _ ih =>
      exact fixes.pairTokens (ih (fixes.behind ⟨[_, _, _], rfl⟩))

/-- If all references of a formula stay where they are, its new text is read as the same
formula. -/
theorem parse_text_of_fixes {text : String} (h : parse text = .ok e)
    (fixes : f.Fixes (tokenize text)) : parse (f.text text) = .ok e := by
  rw [parse, f.tokenize_text]
  rw [parse, tokenize, tokens_body] at h
  rw [tokenize, tokens_body] at fixes
  have grouped := grouped_tokens h
  have traced := traced_tokens f _ grouped.readable
  obtain ⟨e', parsed, rfl⟩ := ofTokens_rewrites Expr.congruence_eq
    (grouped.rewrites_of_forall₂ (traced.sameMeaning fixes)) h
  exact parsed

end Formula

end Spreadsheet
