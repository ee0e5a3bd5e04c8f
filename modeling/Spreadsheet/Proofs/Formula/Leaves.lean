import Spreadsheet.Proofs.Formula.Substitution
import Spreadsheet.Proofs.Formula.Trace

/-!
# Redirected leaves

Redirecting a tree is defined by recursion, without any text. On a single leaf this agrees with
redirecting the text: the tokens of the redirected text are again a leaf, namely that of the
redirected tree.
-/

namespace Spreadsheet

open Formula

/-- A formula with its references redirected. What points nowhere becomes a lost reference. -/
def Expr.redirect (f : Redirection) : Expr → Expr
  | .number n => .number n
  | .text s => .text s
  | .boolean b => .boolean b
  | .cell r => (f.lone r).elim .lost .cell
  | .range first second => (f.pair first second).elim .lost fun moved => .range moved.1 moved.2
  | .lost => .lost
  | .binary op left right => .binary op (left.redirect f) (right.redirect f)
  | .negate operand => .negate (operand.redirect f)
  | .call name args => .call name (args.map (redirect f))

theorem Expr.congruence_redirect (f : Redirection) :
    Expr.Congruence fun e e' => e.redirect f = e' where
  number n := by rw [redirect]
  text s := by rw [redirect]
  boolean b := by rw [redirect]
  binary hleft hright := by rw [redirect, hleft, hright]
  negate h := by rw [redirect, h]
  call {name args args'} h := by
    have same : args.map (redirect f) = args' := by
      rw [← List.forall₂_eq_eq_eq, List.forall₂_map_left_iff]
      exact h
    rw [redirect, same]

/-- What is left of a formula without its references: all of them are lost. -/
def Expr.skeleton (e : Expr) : Expr :=
  e.redirect ⟨fun _ => none, fun _ _ => none⟩

theorem Expr.congruence_skeleton : Expr.Congruence fun e e' => e.skeleton = e'.skeleton where
  number _ := rfl
  text _ := rfl
  boolean _ := rfl
  binary hleft hright := by
    simp only [skeleton, redirect] at hleft hright ⊢
    rw [hleft, hright]
  negate h := by
    simp only [skeleton, redirect] at h ⊢
    rw [h]
  call {name args args'} h := by
    have same : args.map skeleton = args'.map skeleton := by
      rw [← List.forall₂_eq_eq_eq, List.forall₂_map_left_iff, List.forall₂_map_right_iff]
      exact h
    simp only [skeleton, redirect]
    exact congrArg (Expr.call name) same

namespace Formula

/-- Nothing is left of a leaf. -/
theorem Leaf.skeleton_eq {xs : List Token} {e : Expr} (h : Leaf xs e) : e.skeleton = .lost := by
  cases h with
  | lost => rw [Expr.skeleton, Expr.redirect]
  | @lone _ r _ => cases r <;> simp [loneExpr, Expr.skeleton, Expr.redirect]
  | @range _ _ a b _ _ => cases a <;> cases b <;> simp [rangeExpr, Expr.skeleton, Expr.redirect]

theorem Grouped.readable {ts : List Token} (h : Grouped ts) : ∀ t ∈ ts, t.Readable := by
  induction h with
  | finish => simp [Token.Readable]
  | @solid t ts solid _ ih =>
      intro u hu
      rcases List.mem_cons.mp hu with rfl | hu
      · cases u <;> trivial
      · exact ih u hu
  | leaf leaf _ ih =>
      intro u hu
      rcases List.mem_append.mp hu with hu | hu
      · cases leaf with
        | lost =>
            rw [List.mem_singleton.mp hu]
            trivial
        | lone hresolve =>
            rw [List.mem_singleton.mp hu]
            exact ⟨_, hresolve⟩
        | range hfirst hsecond =>
            simp only [List.mem_cons, List.not_mem_nil, or_false] at hu
            rcases hu with rfl | rfl | rfl
            · exact ⟨_, hfirst⟩
            · trivial
            · exact ⟨_, hsecond⟩
      · exact ih u hu

/-! ### References as they are written -/

theorem resolve_text {r : Reference} (h : r.InGrid) : resolve r.text = .ok (some r) := by
  rw [resolve, Reference.ofText, Reference.text, String.toList_ofList, Reference.ofChars_chars h]

/-- A reference that is written behind an equals sign is read as the formula it is. -/
theorem parse_reference {r : Reference} (h : r.InGrid) : parse ("=" ++ r.text) = .ok (.cell r) := by
  have written : tokens (r.chars ++ []) = [.reference r.text, .finish] := by
    rw [Reference.chars, tokens_reference (Reference.numbered_spelling r) (by simp),
      tokens_of_blanks (by simp)]
    rfl
  have text : ("=" ++ r.text).toList = [] ++ '=' :: r.chars := by simp [Reference.text]
  rw [parse, tokenize, tokens_body, text, content_equals (by simp), ← List.append_nil r.chars,
    ofTokens_tokens_eq_ok_iff, written]
  exact .chain (.lone (resolve_text h) (by simp)) (.done (by simp))

theorem resolve_of_ok {written : List Char} {r : Reference}
    (h : Reference.ofChars written = .ok r) : resolve (String.ofList written) = .ok (some r) := by
  rw [resolve, Reference.ofText, String.toList_ofList, h]

variable {s s' : Spelling}

/-- What has a digit at its end is at worst a lost reference. -/
theorem resolve_of_error (numbered : s.Numbered) {cause : AddressError}
    (h : Reference.ofChars s.chars = .error cause) :
    resolve (String.ofList s.chars) = .ok none := by
  have ends : endsInDigit s.chars := by
    obtain ⟨d, last⟩ :=
      Option.isSome_iff_exists.mp (List.getLast?_isSome.mpr numbered.digits_ne_nil)
    have digit := numbered.digits d (List.mem_of_getLast? last)
    simp [endsInDigit, Spelling.chars, last, digit]
  rw [resolve, Reference.ofText, String.toList_ofList, h]
  simp [ends]

/-- Without letters there is no reference. -/
theorem resolve_letterless (numbered : s.Numbered) (letters : s.letters = []) :
    resolve (String.ofList s.chars) = .ok none := by
  cases h : Reference.ofChars s.chars with
  | error cause => exact resolve_of_error numbered h
  | ok r =>
      have noBlank (c : Char) (hc : c ∈ s.chars) : ¬ Text.isBlank c :=
        (Spelling.of_mem_chars numbered.letters numbered.digits hc).1
      have split : Spelling.split (s.chars ++ []) = (s, []) := numbered.split_append (by simp)
      rw [Reference.ofChars, Text.trim_eq_self noBlank] at h
      rw [List.append_nil] at split
      have letters' := (Reference.readTrimmed_eq_ok h).1
      rw [split] at letters'
      exact absurd letters letters'

theorem rangeExpr_none_left (b : Option Reference) : rangeExpr none b = .lost := by
  cases b <;> rfl

theorem rangeExpr_none_right (a : Option Reference) : rangeExpr a none = .lost := by
  cases a <;> rfl

variable {f : Redirection} (grid : f.StaysOnGrid)

include grid

/-- The token of a redirected lone reference is the leaf of the redirected tree. -/
theorem leaf_loneToken (numbered : s.Numbered) : ∃ r e, resolve (String.ofList s.chars) = .ok r ∧
    Leaf [f.loneToken s.chars] e ∧ (loneExpr r).redirect f = e := by
  rw [Redirection.loneToken]
  cases h : Reference.ofChars s.chars with
  | error cause =>
      have lost := resolve_of_error numbered h
      exact ⟨none, .lost, lost, .lone lost, by rw [loneExpr, Expr.redirect]⟩
  | ok r =>
      have found := resolve_of_ok h
      cases moved : f.lone r with
      | none =>
          refine ⟨some r, .lost, found, ?_, ?_⟩
          · simp only [moved, Option.elim_none]
            exact .lost
          · rw [loneExpr, Expr.redirect, moved]
            rfl
      | some r' =>
          refine ⟨some r, .cell r', found, ?_, ?_⟩
          · simp only [moved, Option.elim_some]
            exact .lone (resolve_text (grid.lone (Reference.inGrid_of_ofChars h) moved))
          · rw [loneExpr, Expr.redirect, moved]
            rfl

/-- The tokens of a redirected pair of references are the leaf of the redirected tree. -/
theorem leaf_pairTokens (numbered : s.Numbered) (numbered' : s'.Numbered) :
    ∃ a b e, resolve (String.ofList s.chars) = .ok a ∧ resolve (String.ofList s'.chars) = .ok b ∧
      Leaf (f.pairTokens s.chars s'.chars) e ∧ (rangeExpr a b).redirect f = e := by
  rw [Redirection.pairTokens]
  cases h : Reference.ofChars s.chars with
  | error cause =>
      have lost := resolve_of_error numbered h
      obtain ⟨b, second⟩ : ∃ b, resolve (String.ofList s'.chars) = .ok b := by
        cases h' : Reference.ofChars s'.chars with
        | error cause => exact ⟨none, resolve_of_error numbered' h'⟩
        | ok b => exact ⟨some b, resolve_of_ok h'⟩
      exact ⟨none, b, .lost, lost, second, .range lost second, by
        rw [rangeExpr_none_left, Expr.redirect]⟩
  | ok a =>
      have first := resolve_of_ok h
      cases h' : Reference.ofChars s'.chars with
      | error cause =>
          have lost := resolve_of_error numbered' h'
          exact ⟨some a, none, .lost, first, lost, .range first lost,
            by rw [rangeExpr_none_right, Expr.redirect]⟩
      | ok b =>
          have second := resolve_of_ok h'
          refine ⟨some a, some b, _, first, second, ?_, rfl⟩
          rw [rangeExpr, Expr.redirect]
          cases moved : f.pair a b with
          | none =>
              simp only [moved, Option.elim_none]
              exact .lost
          | some ends =>
              obtain ⟨onGrid, onGrid'⟩ := grid.pair (Reference.inGrid_of_ofChars h)
                (Reference.inGrid_of_ofChars h') moved
              simp only [moved, Option.elim_some]
              exact .range (resolve_text onGrid) (resolve_text onGrid')

end Formula

end Spreadsheet
