import Spreadsheet.Evaluation.Evaluator

/-!
# Calculations

A calculation is one pass over a sheet with a fresh evaluator: the outcomes of all formulas, and
how many of what there were.
-/

namespace Spreadsheet

/-- The numbers of a calculation. -/
structure Statistics where
  /-- Formulas on the sheet. -/
  formulas : Nat
  /-- Formulas that have an outcome. -/
  calculated : Nat
  /-- Outcomes that are errors. -/
  errors : Nat
  /-- Errors whose code is that of a cycle. -/
  circular : Nat
  /-- Cells that store an error. -/
  unparsable : Nat
deriving DecidableEq, Repr

/-- The outcomes of a pass and its numbers. -/
structure Calculation where
  outcomes : Outcomes
  statistics : Statistics

namespace Calculation

/-- The addresses of the formulas that failed, row by row. -/
def failing (c : Calculation) : List Address :=
  (c.outcomes.toList.filter fun entry => entry.2.isError).map Prod.fst

end Calculation

/-- Evaluates all formulas of a sheet. -/
def Sheet.calculate (s : Sheet) (options : Options) : Calculation :=
  let outcomes := (({ options := options } : Evaluator).evaluateSheet s).1
  let codes := outcomes.values.filterMap Outcome.code?
  { outcomes := outcomes
    statistics :=
      { formulas := s.formulas.length
        calculated := outcomes.size
        errors := codes.length
        circular := codes.countP (· == .cycle)
        unparsable := s.entries.countP fun entry => entry.2.isError } }

end Spreadsheet
