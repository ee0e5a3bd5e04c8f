import Spreadsheet.Proofs.Evaluation.Pass
import Spreadsheet.Proofs.Evaluation.Unfolding

/-!
# A pass agrees with single evaluations

Whether the cells of a sheet are evaluated in one pass, each with the outcomes in front of it,
or one by one, each from scratch, makes no difference but in the wording of failures. The sheet
may hold circles of any form; only the number of its formulas is bounded, because a single
evaluation follows no more references than a chain may hold.
-/

namespace Spreadsheet

namespace Evaluator

variable {e : Evaluator} {s : Sheet} {options : Options} {a : Address}

/-- Every outcome that a pass settles stands for its cell. -/
theorem exists_faithful_settleAll (few : s.formulas.length < maxChain) {cells : List Address}
    (nodup : cells.Nodup) :
    ∃ depth, s.Faithful options (settleAll s options cells) depth := by
  induction cells with
  | nil => exact ⟨0, Sheet.faithful_empty⟩
  | cons a cells ih =>
      obtain ⟨fresh, nodup⟩ := List.nodup_cons.mp nodup
      obtain ⟨depth, faithful⟩ := ih nodup
      rw [settleAll, List.foldr_cons, settle]
      split
      · next formula =>
          exact faithful.insert few (Sheet.mem_formulas_iff_treeAt.mpr formula)
            (settleAll_of_not_mem fresh)
      · exact ⟨depth, faithful⟩

/-- On a sheet with fewer formulas than a chain may hold cells, the outcome of a formula in a pass
over the whole sheet is its outcome when it is evaluated alone: the same value, or an error with
the same code. -/
theorem evaluateSheet_agrees_evaluate (e : Evaluator) (s : Sheet)
    (few : s.formulas.length < maxChain) (a : Address) (ha : a ∈ s.formulas) :
    ∃ outcome, (e.evaluateSheet s).1[a]? = some outcome ∧
      outcome.SameUpToMessage (s.evaluate e.options a) := by
  obtain ⟨later, earlier, split⟩ := exists_split (e := e) ha
  have nodup : (later ++ a :: earlier).Nodup := split ▸ nodup_passed
  have front : (a :: earlier).Nodup := (List.nodup_append.mp nodup).2.1
  obtain ⟨depth, faithful⟩ :
      ∃ depth, s.Faithful e.options (settleAll s e.options earlier) depth :=
    exists_faithful_settleAll few front.tail
  have fresh : (settleAll s e.options earlier)[a]? = none :=
    settleAll_of_not_mem (List.nodup_cons.mp front).1
  refine ⟨s.evaluateWith e.options (settleAll s e.options earlier) a, ?_, ?_⟩
  · rw [evaluateSheet_outcomes, split, settleAll_formula nodup ha]
  · rw [Sheet.evaluate, Sheet.evaluateWith_eq_read ha fresh,
      Sheet.evaluateWith_eq_read ha Std.ExtTreeMap.getElem?_empty]
    exact (Sheet.denotes_read few faithful a).sameUpToMessage
      (Sheet.denotes_read few Sheet.faithful_empty a)

end Evaluator

/-- A sheet with a circle that is also read from outside, and with a division by zero that one of
the cells on the circle meets first. -/
def Sheet.tangle : Sheet :=
  { Sheet.blank "tangle" "Tangle" 3 3 with
    cells := ((((∅ : AddressMap Cell).insert ⟨0, 0⟩ (.ofFormula "=B1+1")).insert ⟨0, 1⟩
      (.ofFormula "=C1+A1")).insert ⟨0, 2⟩ (.ofFormula "=1/0")).insert ⟨1, 0⟩
      (.ofFormula "=SUM(A1:B3)") }

theorem Evaluator.evaluateSheet_agrees_tangle :
    Sheet.tangle.formulas.length < maxChain ∧ ⟨1, 0⟩ ∈ Sheet.tangle.formulas ∧
      ∃ outcome, (({} : Evaluator).evaluateSheet Sheet.tangle).1[(⟨1, 0⟩ : Address)]? =
        some outcome ∧ outcome.SameUpToMessage (Sheet.tangle.evaluate {} ⟨1, 0⟩) :=
  ⟨by decide +kernel, by decide +kernel,
    evaluateSheet_agrees_evaluate {} Sheet.tangle (by decide +kernel) ⟨1, 0⟩ (by decide +kernel)⟩

end Spreadsheet
