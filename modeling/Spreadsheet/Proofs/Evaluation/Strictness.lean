import Spreadsheet.Proofs.Evaluation.CutShort
import Spreadsheet.Proofs.Evaluation.Upkeep

/-!
# Strict and lenient evaluation

References outside the extent either fail or read as empty. The strict evaluation differs from the
lenient one only by failures with the code of a reference: what it finds without such a failure, the
lenient evaluation finds as well, word for word. A failure of this kind cannot get lost on the way,
because no formula catches a failure. So whoever has another result has not read past the extent,
neither itself nor through other cells, has chosen its branches for the same reasons, and has met the
same chains.

In a pass the outcomes that are settled differ themselves, but again only where the strict ones have
that code.
-/

namespace Spreadsheet

/-- Failures with the code of a reference give way to anything; everything else is compared
exactly. -/
def Tolerance.upToLost : Tolerance :=
  .exactBut fun f => f.code = .ref

theorem Tolerance.upToLost_admitsOutside : upToLost.AdmitsOutside true false :=
  .inr ⟨rfl, fun _ => rfl⟩

namespace Outcome

/-- Whether a lenient outcome may stand beside a strict one: it is the same, unless the strict one
has the code of a reference. -/
def Relaxes (strict lenient : Outcome) : Prop :=
  strict.code? = some .ref ∨ lenient = strict

theorem relaxes_ofResult {x y : Except Failure Value} (h : Tolerance.upToLost.Admits x y) :
    (ofResult x).Relaxes (ofResult y) := by
  obtain same | ⟨f, failed, code⟩ := h.eq_or_cut
  · rw [same]
    exact .inr rfl
  · exact .inl (code_ofResult.mpr ⟨f, failed, code⟩)

theorem Relaxes.read {o o' : Outcome} (h : o.Relaxes o') (a : Address) :
    Tolerance.upToLost.Admits (o.read a) (o'.read a) := by
  obtain code | rfl := h
  · cases o with
    | value v => cases code
    | error code' message => exact .of_yields (Option.some.inj code) _
  · exact .refl _

end Outcome

/-- Whether the same cells are settled, and the second outcome of each may stand beside the first. -/
def Outcomes.Relaxed (settled settled' : Outcomes) : Prop :=
  ∀ b : Address, Option.Rel Outcome.Relaxes settled[b]? settled'[b]?

namespace Sheet

open Tolerance

variable {s : Sheet} {settled settled' : Outcomes}

/-- With the same chain and as much room, a lenient reader gets what a strict one gets. -/
theorem read_relaxes (h : settled.Relaxed settled') (room : Nat) (chain : List Address)
    (a : Address) : upToLost.Admits (s.read ⟨true⟩ settled room chain a)
      (s.read ⟨false⟩ settled' room chain a) := by
  induction room using Nat.strongRecOn generalizing chain a with
  | ind room ih =>
  match found : settled[a]?, found' : settled'[a]?, h a with
  | _, _, .some relaxes =>
      rw [read_of_settled found, read_of_settled found']
      exact relaxes.read a
  | _, _, .none =>
      by_cases met : a ∈ chain
      · rw [read_of_mem_chain found met, read_of_mem_chain found' met]
        exact .refl _
      · cases room with
        | zero =>
            rw [read_of_full found met, read_of_full found' met]
            exact .refl _
        | succ room =>
            rw [read_succ found met, read_succ found' met]
            apply follow_admits_of_outside upToLost_admitsOutside
            exact fun _ b => ih room (Nat.lt_succ_self room) (a :: chain) b

theorem evaluateWith_relaxes (h : settled.Relaxed settled') (a : Address) :
    (s.evaluateWith ⟨true⟩ settled a).Relaxes (s.evaluateWith ⟨false⟩ settled' a) := by
  rw [evaluateWith, evaluateWith]
  split
  · exact .inr rfl
  · exact .inr rfl
  · exact .inr rfl
  · next source tree _ =>
      apply Outcome.relaxes_ofResult
      apply Expr.value_admits _ upToLost_admitsOutside
      · exact fun b _ => read_relaxes h (maxChain - 1) [a] b
      · rfl

end Sheet

namespace Evaluator

variable {s : Sheet} {a : Address}

/-- In which order a pass comes to the cells depends on the sheet alone. -/
theorem passed_eq (e e' : Evaluator) (s : Sheet) : e.passed s = e'.passed s := by
  have graph : (e.rebuild s).graph = (e'.rebuild s).graph :=
    (records_evaluateSheet e s).unique (records_evaluateSheet e' s)
  rw [passed, passed, graph]

theorem relaxed_settleAll (cells : List Address) :
    (settleAll s ⟨true⟩ cells).Relaxed (settleAll s ⟨false⟩ cells) := by
  induction cells with
  | nil =>
      intro b
      simp only [settleAll, List.foldr_nil, Std.ExtTreeMap.getElem?_empty]
      exact .none
  | cons c cells ih =>
      intro b
      rw [settleAll, settleAll, List.foldr_cons, List.foldr_cons, getElem?_settle, getElem?_settle,
        ← settleAll, ← settleAll]
      split
      · exact .some (Sheet.evaluateWith_relaxes ih c)
      · exact ih b

theorem relaxed_evaluateSheet (g g' : Graph) (s : Sheet) :
    (evaluateSheet ⟨g, ⟨true⟩⟩ s).1.Relaxed (evaluateSheet ⟨g', ⟨false⟩⟩ s).1 := by
  rw [evaluateSheet_outcomes, evaluateSheet_outcomes, passed_eq ⟨g', ⟨false⟩⟩ ⟨g, ⟨true⟩⟩ s]
  exact relaxed_settleAll _

/-- To fail on references outside the extent only adds errors with the code of a reference. On a
sheet of any size, with or without circles, a cell that the strict evaluation gives another outcome
has this very outcome in the lenient evaluation, its message included. This holds of single cells
and of passes over the whole sheet, whatever graphs they begin with; both passes settle the same
cells. -/
theorem lenient_eq_strict (g g' : Graph) (s : Sheet) (a : Address) :
    ((s.evaluate ⟨true⟩ a).code? ≠ some .ref → s.evaluate ⟨false⟩ a = s.evaluate ⟨true⟩ a) ∧
    (∀ outcome, (evaluateSheet ⟨g, ⟨true⟩⟩ s).1[a]? = some outcome → outcome.code? ≠ some .ref →
      (evaluateSheet ⟨g', ⟨false⟩⟩ s).1[a]? = some outcome) ∧
    (a ∈ (evaluateSheet ⟨g, ⟨true⟩⟩ s).1 ↔ a ∈ (evaluateSheet ⟨g', ⟨false⟩⟩ s).1) := by
  refine ⟨?_, ?_, ?_⟩
  · intro other
    have nothing : Outcomes.Relaxed ∅ ∅ := relaxed_settleAll (s := s) []
    exact (Sheet.evaluateWith_relaxes nothing a).resolve_left other
  · intro outcome found other
    have beside := relaxed_evaluateSheet g g' s a
    rw [found] at beside
    match found' : (evaluateSheet ⟨g', ⟨false⟩⟩ s).1[a]?, beside with
    | _, .some relaxes => rw [relaxes.resolve_left other]
  · rw [mem_evaluateSheet, mem_evaluateSheet]

end Evaluator

/-- A sheet of two cells. The first one reads past the extent; the second one mentions it in the
branch that is not chosen, and divides by zero in the other one. -/
def Sheet.brink : Sheet :=
  { Sheet.blank "brink" "Brink" 1 2 with
    cells := ((∅ : AddressMap Cell).insert ⟨0, 0⟩ (.ofFormula "=C1+1")).insert ⟨0, 1⟩
      (.ofFormula "=IF(0,A1,1/0)") }

/-- The second cell fails in the same way whether the first one does or not. -/
theorem Evaluator.lenient_eq_strict_brink :
    (Sheet.brink.evaluate ⟨true⟩ ⟨0, 0⟩).code? = some .ref ∧
    (Sheet.brink.evaluate ⟨false⟩ ⟨0, 0⟩).code? = none ∧
    (Sheet.brink.evaluate ⟨true⟩ ⟨0, 1⟩).code? = some .div0 ∧
    Sheet.brink.evaluate ⟨false⟩ ⟨0, 1⟩ = Sheet.brink.evaluate ⟨true⟩ ⟨0, 1⟩ ∧
    ∃ outcome, (evaluateSheet ⟨.empty, ⟨true⟩⟩ Sheet.brink).1[(⟨0, 1⟩ : Address)]? = some outcome ∧
      outcome.code? = some .div0 ∧
      (evaluateSheet ⟨.empty, ⟨false⟩⟩ Sheet.brink).1[(⟨0, 1⟩ : Address)]? = some outcome := by
  have lost : (Sheet.brink.evaluate ⟨true⟩ ⟨0, 0⟩).code? = some .ref := by decide +kernel
  have empty : (Sheet.brink.evaluate ⟨false⟩ ⟨0, 0⟩).code? = none := by decide +kernel
  have fails : (Sheet.brink.evaluate ⟨true⟩ ⟨0, 1⟩).code? = some .div0 := by decide +kernel
  have found : (evaluateSheet ⟨.empty, ⟨true⟩⟩ Sheet.brink).1[(⟨0, 1⟩ : Address)]? =
      some (.error .div0 "Division by zero") := by
    decide +kernel
  obtain ⟨alone, inPass, -⟩ := lenient_eq_strict .empty .empty Sheet.brink ⟨0, 1⟩
  refine ⟨lost, empty, fails, alone ?_, _, found, rfl, inPass _ found ?_⟩
  · simp [fails]
  · simp [Outcome.code?]

end Spreadsheet
