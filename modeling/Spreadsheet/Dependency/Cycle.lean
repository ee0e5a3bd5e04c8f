import Spreadsheet.Dependency.Graph

/-!
# Closing a cycle

An edge from one cell to another closes a cycle exactly when the first can be reached from the
second. The search keeps the cells still to be looked at on a stack. The edges of a cell are
taken out of the map when they are followed, so none is followed twice and the search ends on
every graph, cyclic or not.
-/

namespace Spreadsheet.Graph

/-- Whether `goal` is on the stack or can be reached from it through the edges left in `unread`. -/
def finds (goal : Address) (unread : AddressMap AddressSet) : List Address → Bool
  | [] => false
  | a :: stack =>
    if a = goal then true
    else finds goal (unread.erase a) ((setAt unread a).toList ++ stack)
termination_by stack => edgeCount unread + stack.length
decreasing_by
  rw [edgeCount_erase unread a]
  simp
  omega

/-- Whether the edge from `source` to `target` would close a cycle. -/
def closesCycle (g : Graph) (source target : Address) : Bool :=
  finds source g.reads [target]

end Spreadsheet.Graph
