import Mathlib.Data.List.Forall2
import Spreadsheet.Proofs.Formula.Derivation

/-!
# Substitution of references

A leaf is what a formula refers to: a lost reference, a lone one, or a range with its colon. If
leaves of a stream are replaced by other leaves and nothing else changes, the new stream spells a
formula as well, and its tree is the old one with the leaves replaced. What the new leaves have to
do with the old ones is left open: any relation between trees will do that holds between the
leaves and is preserved by every operator and call.
-/

namespace Spreadsheet

/-- Whether a relation between formulas is preserved when larger formulas are built. -/
structure Expr.Congruence (E : Expr → Expr → Prop) : Prop where
  number : ∀ n, E (.number n) (.number n)
  text : ∀ s, E (.text s) (.text s)
  boolean : ∀ b, E (.boolean b) (.boolean b)
  binary : ∀ {op left left' right right'}, E left left' → E right right' →
    E (.binary op left right) (.binary op left' right')
  negate : ∀ {operand operand'}, E operand operand' → E (.negate operand) (.negate operand')
  call : ∀ {name args args'}, List.Forall₂ E args args' → E (.call name args) (.call name args')

/-- The relation between the operands of two chains with the same operators. -/
def Expr.SameOperators (E : Expr → Expr → Prop) :
    List (BinaryOp × Expr) → List (BinaryOp × Expr) → Prop :=
  List.Forall₂ fun x y => x.1 = y.1 ∧ E x.2 y.2

section Chains

variable {E : Expr → Expr → Prop} (cong : Expr.Congruence E)

include cong

theorem Expr.Congruence.mergeLevel (level : Nat) {first first' : Expr}
    {more more' : List (BinaryOp × Expr)} (h : E first first')
    (hmore : Expr.SameOperators E more more') :
    E (Expr.mergeLevel level first more).1 (Expr.mergeLevel level first' more').1 ∧
      Expr.SameOperators E (Expr.mergeLevel level first more).2
        (Expr.mergeLevel level first' more').2 := by
  induction hmore generalizing first first' with
  | nil => exact ⟨h, .nil⟩
  | @cons x y more more' same rest ih =>
      obtain ⟨op, operand⟩ := x
      obtain ⟨op', operand'⟩ := y
      obtain ⟨rfl, hoperand⟩ : op = op' ∧ E operand operand' := same
      unfold Expr.mergeLevel
      split
      · exact ih (cong.binary h hoperand)
      · obtain ⟨hfirst, hrest⟩ := ih hoperand
        exact ⟨h, .cons ⟨rfl, hfirst⟩ hrest⟩

theorem Expr.Congruence.mergeLevels {levels : Nat} {first first' : Expr}
    {more more' : List (BinaryOp × Expr)} (h : E first first')
    (hmore : Expr.SameOperators E more more') :
    E (Expr.mergeLevels levels first more) (Expr.mergeLevels levels first' more') := by
  induction levels generalizing first first' more more' with
  | zero => exact h
  | succ level ih =>
      obtain ⟨hfirst, hrest⟩ := cong.mergeLevel (level + 1) h hmore
      exact ih hfirst hrest

/-- Chains with related operands are grouped in the same way. -/
theorem Expr.Congruence.ofChain {first first' : Expr} {more more' : List (BinaryOp × Expr)}
    (h : E first first') (hmore : Expr.SameOperators E more more') :
    E (Expr.ofChain first more) (Expr.ofChain first' more') :=
  cong.mergeLevels h hmore

end Chains

/-- Whether a token is no part of a leaf and does not end the stream. -/
def Token.isSolid : Token → Bool
  | .lost | .reference _ | .colon | .finish | .stop _ => false
  | _ => true

namespace Formula

/-- What a formula refers to, as a stream spells it. -/
inductive Leaf : List Token → Expr → Prop where
  | lost : Leaf [.lost] .lost
  | lone {written : String} {r : Option Reference} : resolve written = .ok r →
      Leaf [.reference written] (loneExpr r)
  | range {first second : String} {a b : Option Reference} : resolve first = .ok a →
      resolve second = .ok b →
      Leaf [.reference first, .colon, .reference second] (rangeExpr a b)

/-- Whether each reference of a stream belongs to a leaf, and each colon too. -/
inductive Grouped : List Token → Prop where
  | finish : Grouped [.finish]
  | solid {t : Token} {ts : List Token} : t.isSolid → Grouped ts → Grouped (t :: ts)
  | leaf {xs ts : List Token} {e : Expr} : Leaf xs e → Grouped ts → Grouped (xs ++ ts)

/-- Whether a stream comes from another one by replacing leaves by related ones. -/
inductive Rewrites (E : Expr → Expr → Prop) : List Token → List Token → Prop where
  | finish : Rewrites E [.finish] [.finish]
  | solid {t : Token} {ts ts' : List Token} : t.isSolid → Rewrites E ts ts' →
      Rewrites E (t :: ts) (t :: ts')
  | leaf {xs xs' ts ts' : List Token} {e e' : Expr} : Leaf xs e → Leaf xs' e' → E e e' →
      Rewrites E ts ts' → Rewrites E (xs ++ ts) (xs' ++ ts')

variable {E : Expr → Expr → Prop} {t : Token} {xs ts ts' rest : List Token} {e : Expr}

/-! ### Grouped streams -/

/-- A leaf begins with a lost reference or with a written one. -/
theorem Leaf.head? (h : Leaf xs e) (ts : List Token) :
    ∃ t, (xs ++ ts).head? = some t ∧ (t = .lost ∨ ∃ w, t = .reference w) := by
  cases h with
  | lost => exact ⟨_, rfl, .inl rfl⟩
  | lone => exact ⟨_, rfl, .inr ⟨_, rfl⟩⟩
  | range => exact ⟨_, rfl, .inr ⟨_, rfl⟩⟩

/-- No stream whose colons belong to leaves begins with one. -/
theorem Grouped.head?_ne_colon (h : Grouped ts) : ts.head? ≠ some .colon := by
  cases h with
  | finish => simp
  | solid solid _ =>
      intro same
      cases same
      cases solid
  | leaf leaf _ =>
      obtain ⟨t, head, rfl | ⟨w, rfl⟩⟩ := leaf.head? _
      · rw [head]
        simp
      · rw [head]
        simp

theorem Grouped.tail (h : Grouped (t :: ts)) (noReference : ∀ w, t ≠ .reference w)
    (live : t.isEnd = false) : Grouped ts := by
  generalize whole : t :: ts = us at h
  cases h with
  | finish =>
      cases whole
      cases live
  | solid _ h =>
      cases whole
      exact h
  | leaf leaf h =>
      cases leaf with
      | lost =>
          cases whole
          exact h
      | lone =>
          cases whole
          exact absurd rfl (noReference _)
      | range =>
          cases whole
          exact absurd rfl (noReference _)

/-- A reference of a grouped stream stands alone, or it is the first end of a range. -/
theorem Grouped.reference_inv {w : String} (h : Grouped (.reference w :: ts)) :
    (∃ r, resolve w = .ok r ∧ Grouped ts) ∨
      ∃ v us a b, ts = .colon :: .reference v :: us ∧ resolve w = .ok a ∧ resolve v = .ok b ∧
        Grouped us := by
  generalize whole : Token.reference w :: ts = us at h
  cases h with
  | finish => cases whole
  | solid solid _ =>
      cases whole
      cases solid
  | leaf leaf h =>
      cases leaf with
      | lost => cases whole
      | lone hresolve =>
          cases whole
          exact .inl ⟨_, hresolve, h⟩
      | range hfirst hsecond =>
          cases whole
          exact .inr ⟨_, _, _, _, rfl, hfirst, hsecond, h⟩

/-- What is derived from a stream is grouped if the rest is. -/
theorem Derives.grouped {phrase : Phrase} (h : Derives ts phrase rest) (hrest : Grouped rest) :
    Grouped ts := by
  induction h with
  | number => exact .solid rfl hrest
  | text => exact .solid rfl hrest
  | boolean => exact .solid rfl hrest
  | lost => exact .leaf .lost hrest
  | lone hresolve _ => exact .leaf (.lone hresolve) hrest
  | range hfirst hsecond => exact .leaf (.range hfirst hsecond) hrest
  | emptyCall => exact .solid rfl (.solid rfl (.solid rfl hrest))
  | call _ _ ih => exact .solid rfl (.solid rfl (ih (.solid rfl hrest)))
  | parens _ ih => exact .solid rfl (ih (.solid rfl hrest))
  | negate _ ih => exact .solid rfl (ih hrest)
  | chain _ _ ih ih' => exact ih (ih' hrest)
  | more _ _ ih ih' => exact .solid rfl (ih (ih' hrest))
  | done => exact hrest
  | last _ _ ih => exact ih hrest
  | comma _ _ ih ih' => exact ih (.solid rfl (ih' hrest))

/-- The tokens of a formula are grouped. -/
theorem grouped_tokens {cs : List Char} (h : ofTokens (tokens cs) = .ok e) :
    Grouped (tokens cs) :=
  (ofTokens_tokens_eq_ok_iff.mp h).grouped .finish

/-! ### Rewritten streams -/

theorem Rewrites.left (h : Rewrites E ts ts') : Grouped ts := by
  induction h with
  | finish => exact .finish
  | solid solid _ ih => exact .solid solid ih
  | leaf leaf _ _ _ ih => exact .leaf leaf ih

theorem Rewrites.right (h : Rewrites E ts ts') : Grouped ts' := by
  induction h with
  | finish => exact .finish
  | solid solid _ ih => exact .solid solid ih
  | leaf _ leaf' _ _ ih => exact .leaf leaf' ih

/-- A token that is no part of a leaf begins the old stream if it begins the new one. -/
theorem Rewrites.head? (h : Rewrites E ts ts') (solid : t.isSolid) (head : ts'.head? = some t) :
    ts.head? = some t := by
  cases h with
  | finish => exact head
  | solid _ _ => exact head
  | leaf _ leaf' _ _ =>
      obtain ⟨u, same, kind⟩ := leaf'.head? _
      rw [same] at head
      cases head
      rcases kind with rfl | ⟨w, rfl⟩ <;> cases solid

theorem Rewrites.finish_inv (h : Rewrites E [.finish] ts') : ts' = [.finish] := by
  generalize whole : [Token.finish] = us at h
  cases h with
  | finish => rfl
  | solid solid _ =>
      cases whole
      cases solid
  | leaf leaf _ _ _ =>
      obtain ⟨u, same, kind⟩ := leaf.head? _
      rw [← whole] at same
      cases same
      rcases kind with same | ⟨w, same⟩ <;> cases same

theorem Rewrites.solid_inv (h : Rewrites E (t :: ts) ts') (solid : t.isSolid) :
    ∃ us, ts' = t :: us ∧ Rewrites E ts us := by
  generalize whole : t :: ts = us at h
  cases h with
  | finish =>
      cases whole
      cases solid
  | solid _ h =>
      cases whole
      exact ⟨_, rfl, h⟩
  | leaf leaf _ _ _ =>
      obtain ⟨u, same, kind⟩ := leaf.head? _
      rw [← whole] at same
      cases same
      rcases kind with rfl | ⟨w, rfl⟩ <;> cases solid

/-- A leaf in front of a stream is the one that is replaced. -/
theorem Rewrites.leaf_inv (h : Rewrites E (xs ++ ts) ts') (leaf : Leaf xs e)
    (alone : ∀ w, xs = [.reference w] → ts.head? ≠ some .colon) :
    ∃ xs' e' us, ts' = xs' ++ us ∧ Leaf xs' e' ∧ E e e' ∧ Rewrites E ts us := by
  generalize whole : xs ++ ts = us at h
  obtain ⟨u, begins, kind⟩ := leaf.head? ts
  rw [whole] at begins
  cases h with
  | finish =>
      cases begins
      rcases kind with same | ⟨w, same⟩ <;> cases same
  | solid solid _ =>
      cases begins
      rcases kind with rfl | ⟨w, rfl⟩ <;> cases solid
  | leaf old new related h =>
      cases leaf with
      | lost =>
          cases old with
          | lost =>
              cases whole
              exact ⟨_, _, _, rfl, new, related, h⟩
          | lone => cases whole
          | range => cases whole
      | lone hresolve =>
          cases old with
          | lost => cases whole
          | lone hresolve' =>
              cases whole
              cases hresolve.symm.trans hresolve'
              exact ⟨_, _, _, rfl, new, related, h⟩
          | range =>
              cases whole
              exact absurd rfl (alone _ rfl)
      | range hfirst hsecond =>
          cases old with
          | lost => cases whole
          | lone =>
              cases whole
              exact absurd rfl h.left.head?_ne_colon
          | range hfirst' hsecond' =>
              cases whole
              cases hfirst.symm.trans hfirst'
              cases hsecond.symm.trans hsecond'
              exact ⟨_, _, _, rfl, new, related, h⟩

/-! ### Formulas of rewritten streams -/

/-- Phrases with related formulas. -/
inductive Phrase.Related (E : Expr → Expr → Prop) : Phrase → Phrase → Prop where
  | operand {e e' : Expr} : E e e' → Related E (operand e) (operand e')
  | chain {e e' : Expr} : E e e' → Related E (chain e) (chain e')
  | more {found found' : List (BinaryOp × Expr)} : Expr.SameOperators E found found' →
      Related E (more found) (more found')
  | arguments {args args' : List Expr} : List.Forall₂ E args args' →
      Related E (arguments args) (arguments args')

theorem Leaf.derives (h : Leaf xs e) (noColon : ts.head? ≠ some .colon) :
    Derives (xs ++ ts) (.operand e) ts := by
  cases h with
  | lost => exact .lost _
  | lone hresolve => exact .lone hresolve noColon
  | range hfirst hsecond => exact .range hfirst hsecond

/-- A leaf is read where the old one was. -/
theorem Leaf.rewrites (leaf : Leaf xs e) (h : Rewrites E (xs ++ ts) ts')
    (alone : ∀ w, xs = [.reference w] → ts.head? ≠ some .colon) :
    ∃ phrase us, Derives ts' phrase us ∧ Phrase.Related E (.operand e) phrase ∧
      Rewrites E ts us := by
  obtain ⟨xs', e', us, rfl, leaf', related, h⟩ := h.leaf_inv leaf alone
  exact ⟨.operand e', us, leaf'.derives h.right.head?_ne_colon, .operand related, h⟩

/-- What is derived from a stream is derived from the rewritten one, with related formulas. -/
theorem Derives.rewrites (cong : Expr.Congruence E) {phrase : Phrase}
    (h : Derives ts phrase rest) (hrewrites : Rewrites E ts ts') :
    ∃ phrase' rest', Derives ts' phrase' rest' ∧ Phrase.Related E phrase phrase' ∧
      Rewrites E rest rest' := by
  induction h generalizing ts' with
  | number n ts =>
      obtain ⟨us, rfl, h⟩ := hrewrites.solid_inv rfl
      exact ⟨_, us, .number n us, .operand (cong.number n), h⟩
  | text s ts =>
      obtain ⟨us, rfl, h⟩ := hrewrites.solid_inv rfl
      exact ⟨_, us, .text s us, .operand (cong.text s), h⟩
  | boolean b ts =>
      obtain ⟨us, rfl, h⟩ := hrewrites.solid_inv rfl
      exact ⟨_, us, .boolean b us, .operand (cong.boolean b), h⟩
  | lost ts => exact Leaf.lost.rewrites hrewrites (by simp)
  | lone hresolve noColon => exact (Leaf.lone hresolve).rewrites hrewrites fun _ _ => noColon
  | range hfirst hsecond => exact (Leaf.range hfirst hsecond).rewrites hrewrites (by simp)
  | emptyCall name ts =>
      obtain ⟨_, rfl, hopen⟩ := hrewrites.solid_inv rfl
      obtain ⟨_, rfl, hclose⟩ := hopen.solid_inv rfl
      obtain ⟨us, rfl, hrest⟩ := hclose.solid_inv rfl
      exact ⟨_, us, .emptyCall name us, .operand (cong.call .nil), hrest⟩
  | call noClose _ ih =>
      obtain ⟨_, rfl, hopen⟩ := hrewrites.solid_inv rfl
      obtain ⟨us, rfl, hargs⟩ := hopen.solid_inv rfl
      obtain ⟨_, rest', inside, ⟨⟩, hclose⟩ := ih hargs
      next args' related =>
      obtain ⟨us', rfl, hrest⟩ := hclose.solid_inv rfl
      exact ⟨_, us', .call (fun close => noClose (hargs.head? rfl close)) inside,
        .operand (cong.call related), hrest⟩
  | parens _ ih =>
      obtain ⟨us, rfl, hchain⟩ := hrewrites.solid_inv rfl
      obtain ⟨_, rest', inside, ⟨⟩, hclose⟩ := ih hchain
      next e' related =>
      obtain ⟨us', rfl, hrest⟩ := hclose.solid_inv rfl
      exact ⟨_, us', .parens inside, .operand related, hrest⟩
  | negate _ ih =>
      obtain ⟨us, rfl, h⟩ := hrewrites.solid_inv rfl
      obtain ⟨_, rest', inside, ⟨⟩, hrest⟩ := ih h
      next e' related =>
      exact ⟨_, rest', .negate inside, .operand (cong.negate related), hrest⟩
  | chain _ _ ih ih' =>
      obtain ⟨_, us, first, ⟨⟩, h⟩ := ih hrewrites
      next e' related =>
      obtain ⟨_, us', more, ⟨⟩, h⟩ := ih' h
      next found' related' =>
      exact ⟨_, us', .chain first more, .chain (cong.ofChain related related'), h⟩
  | more _ _ ih ih' =>
      obtain ⟨us, rfl, h⟩ := hrewrites.solid_inv rfl
      obtain ⟨_, us, first, ⟨⟩, h⟩ := ih h
      next e' related =>
      obtain ⟨_, us', more, ⟨⟩, h⟩ := ih' h
      next found' related' =>
      exact ⟨_, us', .more first more, .more (.cons ⟨rfl, related⟩ related'), h⟩
  | done noOperator =>
      exact ⟨_, ts', .done fun op head => noOperator op (hrewrites.head? rfl head),
        .more .nil, hrewrites⟩
  | last _ noComma ih =>
      obtain ⟨_, us, first, ⟨⟩, h⟩ := ih hrewrites
      next e' related =>
      exact ⟨_, us, .last first fun comma => noComma (h.head? rfl comma),
        .arguments (.cons related .nil), h⟩
  | comma _ _ ih ih' =>
      obtain ⟨_, us, first, ⟨⟩, hcomma⟩ := ih hrewrites
      next e' related =>
      obtain ⟨us', rfl, hargs⟩ := hcomma.solid_inv rfl
      obtain ⟨_, us'', more, ⟨⟩, hrest⟩ := ih' hargs
      next args' related' =>
      exact ⟨_, us'', .comma first more, .arguments (.cons related related'), hrest⟩

/-- A text spells a formula if its tokens come from those of a formula by replacing leaves, and
the formulas are related as the leaves are. -/
theorem ofTokens_rewrites (cong : Expr.Congruence E) {cs ds : List Char}
    (hrewrites : Rewrites E (tokens cs) (tokens ds)) (h : ofTokens (tokens cs) = .ok e) :
    ∃ e', ofTokens (tokens ds) = .ok e' ∧ E e e' := by
  have derived := ofTokens_tokens_eq_ok_iff.mp h
  obtain ⟨_, rest', derived', ⟨⟩, hrest⟩ := derived.rewrites cong hrewrites
  next e' related =>
  rw [hrest.finish_inv] at derived'
  exact ⟨e', ofTokens_tokens_eq_ok_iff.mpr derived', related⟩

end Formula

end Spreadsheet
