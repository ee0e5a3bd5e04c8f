import Spreadsheet.Dependency.Graph

/-!
# Precedents first

Cells are put into an order in which each one stands behind the cells that it reads. A walk goes
down from every requested cell and writes a cell down once all that it reads has been dealt
with, so cells that are read but were not requested are in the order too. What a cell reads is
visited row by row.

An edge back to a cell on the current path is skipped. On a cycle there is no order that would
suit every edge; whoever uses the order meets the cycle again and reports it.

The path is kept as a list, however long it grows. Each of its cells comes with those of its
precedents that are still to be visited. The edges of a cell are taken out of the map when the
cell is entered, which is why the walk ends.
-/

namespace Spreadsheet

/-- How far a walk over a graph has come. -/
structure Tour where
  /-- The edges that have not been followed. -/
  unread : AddressMap AddressSet
  /-- The cells that have been entered. -/
  seen : AddressSet
  /-- The cells that are dealt with, the latest first. -/
  done : List Address

namespace Tour

/-- The state behind the entry of a cell. -/
def enter (t : Tour) (a : Address) : Tour :=
  { t with unread := t.unread.erase a, seen := t.seen.insert a }

/-- The cells to visit from a cell that has not been entered. -/
def targets (t : Tour) (a : Address) : List Address :=
  (Graph.setAt t.unread a).toList

/-- How much there is to do on a path. -/
def effort : List (Address × List Address) → Nat
  | [] => 0
  | step :: path => 2 * step.2.length + 1 + effort path

/-- Walks on until the path is empty. -/
def walk (t : Tour) : List (Address × List Address) → Tour
  | [] => t
  | (a, []) :: path => walk { t with done := a :: t.done } path
  | (a, b :: bs) :: path =>
    if b ∈ t.seen then walk t ((a, bs) :: path)
    else walk (t.enter b) ((b, t.targets b) :: (a, bs) :: path)
termination_by path => 2 * Graph.edgeCount t.unread + effort path
decreasing_by
  · simp [effort]
  · simp [effort]
  · rw [Graph.edgeCount_erase t.unread b]
    simp [effort, enter, targets]
    omega

/-- Walks down from a requested cell, unless it has been entered before. -/
def visit (t : Tour) (a : Address) : Tour :=
  if a ∈ t.seen then t else walk (t.enter a) [(a, t.targets a)]

end Tour

namespace Graph

/-- The requested cells and all that can be reached from them, precedents first. -/
def order (g : Graph) (requested : List Address) : List Address :=
  (requested.foldl Tour.visit ⟨g.reads, ∅, []⟩).done.reverse

end Graph

end Spreadsheet
