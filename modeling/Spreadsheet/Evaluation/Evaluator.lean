import Spreadsheet.Dependency.Order
import Spreadsheet.Evaluation.Cell

/-!
# Evaluating a sheet

An evaluator owns the graph of references. To evaluate a whole sheet it rebuilds the graph from
the formulas and evaluates them precedents first, each with the outcomes before it settled. A
cell that stands on a cycle is met before its precedents are settled; it then follows them like
a cell on its own and finds the circle.

Between two such passes the graph can be kept up to date cell by cell.
-/

namespace Spreadsheet

/-- The graph of references and the options to evaluate with. -/
structure Evaluator where
  graph : Graph := .empty
  options : Options := {}

namespace Evaluator

/-- Replaces what the graph records for a cell by what its formula reads. Only references inside
the extent are recorded; what lies outside never holds a formula. -/
def register (e : Evaluator) (s : Sheet) (a : Address) : Evaluator :=
  { e with graph := (s.readsOf a).foldl (fun g target => g.add a target) (e.graph.forget a) }

/-- Drops what the graph records for a cell. -/
def unregister (e : Evaluator) (a : Address) : Evaluator :=
  { e with graph := e.graph.forget a }

/-- Rebuilds the graph from all formulas of a sheet. -/
def rebuild (e : Evaluator) (s : Sheet) : Evaluator :=
  s.formulas.foldl (fun e a => e.register s a) { e with graph := .empty }

/-- Settles the outcome of a cell if it holds a formula. -/
def settle (s : Sheet) (options : Options) (settled : Outcomes) (a : Address) : Outcomes :=
  if (s.treeAt a).isSome then settled.insert a (s.evaluateWith options settled a) else settled

/-- The outcomes of all formulas of a sheet, and the evaluator with the sheet's graph. -/
def evaluateSheet (e : Evaluator) (s : Sheet) : Outcomes × Evaluator :=
  let e := e.rebuild s
  ((e.graph.order s.formulas).foldl (settle s e.options) ∅, e)

end Evaluator

end Spreadsheet
