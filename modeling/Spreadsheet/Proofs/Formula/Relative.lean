import Spreadsheet.Proofs.Formula.Commuting
import Spreadsheet.Proofs.Formula.Targets

/-!
# Formulas without dollar signs

Where no dollar sign is written, every reference is relative, and it has letters, since only a
dollar sign may begin one that has none. Both is carried from the text to the tree of a formula.
-/

namespace Spreadsheet

open Formula

/-- Whether a reference is fixed on no axis. -/
def Reference.Relative (r : Reference) : Prop :=
  ∀ axis, r.fixedOn axis = false

/-- Whether all references of a formula are relative. -/
def Expr.Relative (e : Expr) : Prop :=
  ∀ t ∈ e.targets, ∀ r ∈ t.ends, r.Relative

theorem Spelling.colFixed_eq_false {s : Spelling} (h : '$' ∉ s.chars) : s.colFixed = false := by
  cases fixed : s.colFixed with
  | false => rfl
  | true => simp [chars, marker, fixed] at h

theorem Spelling.rowFixed_eq_false {s : Spelling} (h : '$' ∉ s.chars) : s.rowFixed = false := by
  cases fixed : s.rowFixed with
  | false => rfl
  | true => simp [chars, marker, fixed] at h

theorem Reference.relative_of_ofChars {r : Reference} {cs : List Char} (h : ofChars cs = .ok r)
    (unmarked : '$' ∉ cs) : r.Relative := by
  have inside : '$' ∉ Text.trim cs := by
    obtain ⟨front, text, -⟩ := Text.exists_trimStart cs
    obtain ⟨back, text', -⟩ := Text.exists_trimEnd (Text.trimStart cs)
    intro mem
    apply unmarked
    rw [text, text']
    exact List.mem_append_right _ (List.mem_append_left _ mem)
  have parts : '$' ∉ (Spelling.split (Text.trim cs)).1.chars := by
    intro mem
    apply inside
    rw [← Spelling.chars_append_split (Text.trim cs)]
    exact List.mem_append_left _ mem
  obtain ⟨-, -, -, col, row⟩ := readTrimmed_eq_ok h
  intro axis
  cases axis with
  | row => exact row.trans (Spelling.rowFixed_eq_false parts)
  | col => exact col.trans (Spelling.colFixed_eq_false parts)

theorem Expr.congruence_relative : Expr.Congruence fun e e' => e = e' ∧ e.Relative where
  number n := ⟨rfl, by simp [Relative, targets]⟩
  text s := ⟨rfl, by simp [Relative, targets]⟩
  boolean b := ⟨rfl, by simp [Relative, targets]⟩
  binary hleft hright := by
    obtain ⟨rfl, left⟩ := hleft
    obtain ⟨rfl, right⟩ := hright
    refine ⟨rfl, fun t ht => ?_⟩
    rcases List.mem_append.mp ht with ht | ht
    · exact left t ht
    · exact right t ht
  negate h := by
    obtain ⟨rfl, operand⟩ := h
    exact ⟨rfl, operand⟩
  call {name args args'} h := by
    obtain rfl : args = args' := List.forall₂_eq_eq_eq ▸ h.imp fun _ _ same => same.1
    refine ⟨rfl, fun t ht => ?_⟩
    rw [targets, targetsAll_eq_flatMap] at ht
    obtain ⟨e, he, ht⟩ := List.mem_flatMap.mp ht
    exact (List.forall₂_same.mp h e he).2 t ht

namespace Formula

variable {cs : List Char} {ts : List Token}

/-- A token of a text without dollar signs has none either; if it is a reference, it has
letters. -/
theorem reference_of_unmarked (unmarked : '$' ∉ cs) {w : String}
    (h : .reference w ∈ tokens cs) :
    (Token.reference w).isLettered ∧ '$' ∉ w.toList := by
  induction cs using lexeme_induction with
  | ends cs ends =>
      rw [tokens_of_isEnd ends, List.mem_singleton] at h
      rw [← h] at ends
      cases ends
  | @live t front l rest live blanks lexeme ih =>
      rw [tokens_lexeme live blanks lexeme] at h
      simp only [List.mem_append, not_or] at unmarked
      rcases List.mem_cons.mp h with here | behind
      · obtain ⟨s, rfl, rfl, parts, begins⟩ := lexeme.reference w here.symm
        have letters : s.letters ≠ [] := by
          intro none
          have free := Spelling.colFixed_eq_false unmarked.2.1
          rw [begins none] at free
          cases free
        obtain ⟨c, cs, first⟩ := List.exists_cons_of_ne_nil letters
        refine ⟨?_, by simpa using unmarked.2.1⟩
        rw [Token.isLettered, String.toList_ofList, List.any_eq_true]
        refine ⟨c, ?_, parts.letters c (by simp [first])⟩
        simp [Spelling.chars, first]
      · exact ih rest (List.suffix_refl rest) unmarked.2.2 behind

theorem Leaf.relative {xs : List Token} {e : Expr} (h : Leaf xs e)
    (unmarked : ∀ w, .reference w ∈ xs → '$' ∉ w.toList) : e.Relative := by
  have found {w : String} {r : Reference} (mem : .reference w ∈ xs)
      (read : resolve w = .ok (some r)) : r.Relative := by
    unfold resolve at read
    split at read
    · next hr =>
        cases read
        exact Reference.relative_of_ofChars hr (unmarked w mem)
    · split at read <;> cases read
  cases h with
  | lost => simp [Expr.Relative, Expr.targets]
  | @lone w r read =>
      cases r with
      | none => simp [Expr.Relative, loneExpr, Expr.targets]
      | some r =>
          have relative := found (by simp) read
          simpa [Expr.Relative, loneExpr, Expr.targets, Target.ends] using relative
  | @range w w' a b first second =>
      cases a with
      | none => simp [Expr.Relative, rangeExpr_none_left, Expr.targets]
      | some a =>
          cases b with
          | none => simp [Expr.Relative, rangeExpr_none_right, Expr.targets]
          | some b =>
              have relative := found (by simp) first
              have relative' := found (by simp) second
              simpa [Expr.Relative, rangeExpr, Expr.targets, Target.ends] using
                ⟨relative, relative'⟩

/-- Replacing every leaf by itself changes nothing. -/
theorem Grouped.rewrites_self {E : Expr → Expr → Prop} (h : Grouped ts)
    (leaves : ∀ xs e, xs ⊆ ts → Leaf xs e → E e e) : Rewrites E ts ts := by
  induction h with
  | finish => exact .finish
  | @solid t ts solid _ ih =>
      exact .solid solid (ih fun xs e inside => leaves xs e (List.subset_cons_of_subset t inside))
  | @leaf xs ts e leaf _ ih =>
      refine .leaf leaf leaf (leaves xs e (List.subset_append_left xs ts) leaf) ?_
      exact ih fun ys e inside => leaves ys e (List.subset_append_of_subset_right xs inside)

variable {text : String} {e : Expr}

theorem not_mem_content (unmarked : '$' ∉ cs) : '$' ∉ content cs := by
  obtain ⟨front, -, text | ⟨text, -⟩⟩ := exists_content cs
  · intro mem
    apply unmarked
    rw [text]
    simp [mem]
  · intro mem
    apply unmarked
    rw [text]
    simp [mem]

/-- The references of a text without dollar signs have letters. -/
theorem isLettered_of_unmarked (unmarked : '$' ∉ text.toList) :
    ∀ t ∈ tokenize text, t.isLettered := by
  intro t ht
  rw [tokenize, tokens_body] at ht
  cases t with
  | reference w => exact (reference_of_unmarked (not_mem_content unmarked) ht).1
  | _ => rfl

/-- All references of a formula without dollar signs are relative. -/
theorem relative_of_unmarked (h : parse text = .ok e) (unmarked : '$' ∉ text.toList) :
    e.Relative := by
  rw [parse, tokenize, tokens_body] at h
  have rewrites : Rewrites (fun e e' => e = e' ∧ e.Relative) (tokens (content text.toList))
      (tokens (content text.toList)) := by
    refine (grouped_tokens h).rewrites_self fun xs e inside leaf => ⟨rfl, leaf.relative ?_⟩
    intro w mem
    exact (reference_of_unmarked (not_mem_content unmarked) (inside mem)).2
  obtain ⟨e', -, -, relative⟩ := ofTokens_rewrites Expr.congruence_relative rewrites h
  exact relative

end Formula

end Spreadsheet
