import Spreadsheet.Dependency.Cycle
import Spreadsheet.Proofs.Dependency.Ordering

/-!
# Edges that close a cycle

Before an edge is recorded, a search can tell whether it would close a cycle. The search is right on
every graph, whether or not it has cycles already: it finds the reader exactly if a path leads there
from the cell that is to be read. So a graph stays without cycles as long as only edges are recorded
for which the search finds nothing.

The search takes the edges of a cell out of the map when it looks at the cell. It is also described
with a set of the cells that it has looked at, which it passes over when they come up again. That
search ends as well, two turns after there are no more edges to pay for one, in whatever order the
targets of a cell are put on the stack, and its answer is the same.
-/

namespace Spreadsheet

namespace Graph

variable {g : Graph} {a b c source target goal : Address} {stack : List Address}

/-! ### Paths and one more edge -/

/-- A path over one more edge follows old edges only, or it follows them to the new edge and from
there on. -/
theorem reaches_add : (g.add source target).Reaches a b ↔
    g.Reaches a b ∨ g.Reaches a source ∧ g.Reaches target b := by
  have old {x y : Address} (path : g.Reaches x y) : (g.add source target).Reaches x y :=
    Relation.ReflTransGen.mono (fun _ _ edge => edge_add.mpr (.inr edge)) x y path
  constructor
  · intro path
    induction path with
    | refl => exact .inl .refl
    | tail _ edge ih =>
        obtain ⟨rfl, rfl⟩ | edge := edge_add.mp edge
        · exact .inr ⟨ih.elim id And.left, .refl⟩
        · exact ih.imp (·.tail edge) fun around => ⟨around.1, around.2.tail edge⟩
  · rintro (path | ⟨before, behind⟩)
    · exact old path
    · exact ((old before).tail (edge_add.mpr (.inl ⟨rfl, rfl⟩))).trans (old behind)

/-- The same for a path of at least one edge. -/
theorem transGen_of_add (path : Relation.TransGen (g.add source target).Edge a b) :
    Relation.TransGen g.Edge a b ∨ g.Reaches a source ∧ g.Reaches target b := by
  obtain ⟨c, edge, path⟩ := Relation.TransGen.head'_iff.mp path
  obtain ⟨rfl, rfl⟩ | edge := edge_add.mp edge
  · exact .inr ⟨.refl, (reaches_add.mp path).elim id And.right⟩
  · exact (reaches_add.mp path).imp (.head' edge) fun around => ⟨around.1.head edge, around.2⟩

/-- Whether an edge lies on a cycle: a path leads back from the cell that is read to its reader. -/
def OnCycle (g : Graph) (a b : Address) : Prop :=
  g.Edge a b ∧ g.Reaches b a

theorem onCycle_add : (g.add source target).OnCycle source target ↔ g.Reaches target source := by
  rw [OnCycle, reaches_add, and_iff_right (edge_add.mpr (.inl ⟨rfl, rfl⟩))]
  exact ⟨fun path => path.elim id And.left, .inl⟩

/-- A new edge from which no path leads back makes no cycle. -/
theorem Acyclic.add (acyclic : g.Acyclic) (apart : ¬ g.Reaches target source) :
    (g.add source target).Acyclic := by
  intro a cycle
  obtain cycle | ⟨before, behind⟩ := transGen_of_add cycle
  · exact acyclic a cycle
  · exact apart (behind.trans before)

/-! ### The search -/

section Avoiding

variable {R : Address → Address → Prop}

/-- A path that follows an edge of `a` goes on without one from where it has done so for the last
time. -/
theorem avoiding_or_leaving (path : Relation.ReflTransGen R c goal) :
    Relation.ReflTransGen (fun x y => x ≠ a ∧ R x y) c goal ∨
      ∃ b, R a b ∧ Relation.ReflTransGen (fun x y => x ≠ a ∧ R x y) b goal := by
  induction path using Relation.ReflTransGen.head_induction_on with
  | refl => exact .inl .refl
  | @head x y edge _ ih =>
      obtain path | leaving := ih
      · by_cases here : x = a
        · exact .inr ⟨y, here ▸ edge, path⟩
        · exact .inl (path.head ⟨here, edge⟩)
      · exact .inr leaving

/-- In the place of a cell on the stack, the targets of its edges serve as well, and then its edges
are not needed any more. -/
theorem exists_path_cons_iff (other : a ≠ goal) :
    (∃ c ∈ a :: stack, Relation.ReflTransGen R c goal) ↔
      ∃ c, (R a c ∨ c ∈ stack) ∧ Relation.ReflTransGen (fun x y => x ≠ a ∧ R x y) c goal := by
  have whole {x : Address} (path : Relation.ReflTransGen (fun x y => x ≠ a ∧ R x y) x goal) :
      Relation.ReflTransGen R x goal :=
    Relation.ReflTransGen.mono (fun _ _ edge => edge.2) x goal path
  constructor
  · rintro ⟨c, mem, path⟩
    obtain path | ⟨b, edge, path⟩ := avoiding_or_leaving (a := a) path
    · obtain rfl | mem := List.mem_cons.mp mem
      · obtain same | ⟨b, edge, -⟩ := path.cases_head
        · exact absurd same other
        · exact absurd rfl edge.1
      · exact ⟨c, .inr mem, path⟩
    · exact ⟨b, .inl edge, path⟩
  · rintro ⟨c, edge | mem, path⟩
    · exact ⟨a, List.mem_cons_self, (whole path).head edge⟩
    · exact ⟨c, List.mem_cons_of_mem a mem, whole path⟩

end Avoiding

variable {unread : AddressMap AddressSet} {stack' : List Address}

/-- The search finds where paths over the edges that are left lead from the stack. -/
theorem finds_iff : finds goal unread stack ↔
    ∃ c ∈ stack, Relation.ReflTransGen (fun x y => y ∈ setAt unread x) c goal := by
  induction unread, stack using finds.induct goal with
  | case1 unread => simp [finds]
  | case2 unread stack =>
      rw [finds, if_pos rfl]
      exact iff_of_true rfl ⟨goal, List.mem_cons_self, .refl⟩
  | case3 unread a stack other ih =>
      rw [finds, if_neg other, ih, exists_path_cons_iff other]
      simp only [mem_setAt_erase, List.mem_append, Std.ExtTreeSet.mem_toList]

/-- An edge would close a cycle exactly if a path leads back. -/
theorem closesCycle_iff_reaches : g.closesCycle source target ↔ g.Reaches target source := by
  rw [closesCycle, finds_iff]
  simp only [List.mem_singleton, exists_eq_left, ← edge_iff_mem_setAt, Reaches]

/-- It does not matter whether cells without edges are on the stack. -/
theorem finds_congr (same : ∀ c, c = goal ∨ setAt unread c ≠ ∅ → (c ∈ stack ↔ c ∈ stack')) :
    finds goal unread stack = finds goal unread stack' := by
  rw [Bool.eq_iff_iff, finds_iff, finds_iff]
  refine exists_congr fun c => and_congr_left fun path => same c ?_
  obtain here | ⟨b, edge, -⟩ := path.cases_head
  · exact .inl here
  · refine .inr fun none => ?_
    rw [none] at edge
    exact Std.ExtTreeSet.not_mem_empty edge

/-! ### The search with a set -/

/-- The answer of a search for `goal` after so many turns, if it has come to one. It keeps the cells
that it has looked at in a set and passes over them when it meets them again. `targets` lists what
each cell reads; of this, only cells that have not been looked at are put on the stack. -/
def search (targets : Address → List Address) (goal : Address) :
    Nat → List Address → AddressSet → Option Bool
  | 0, _, _ => none
  | _ + 1, [], _ => some false
  | turns + 1, a :: stack, visited =>
    if a = goal then some true
    else if a ∈ visited then search targets goal turns stack visited
    else search targets goal turns
      ((targets a).filter (· ∉ visited.insert a) ++ stack) (visited.insert a)

variable {targets : Address → List Address} {visited : AddressSet} {turns : Nat}

/-- Whether a map holds the edges of the cells that are not in a set, and no others. -/
structure HoldsRest (unread : AddressMap AddressSet) (targets : Address → List Address)
    (visited : AddressSet) : Prop where
  rest : ∀ x ∉ visited, (targets x).Perm (setAt unread x).toList
  visited : ∀ x ∈ visited, setAt unread x = ∅

theorem HoldsRest.insert (h : HoldsRest unread targets visited) (a : Address) :
    HoldsRest (unread.erase a) targets (visited.insert a) where
  rest x fresh := by
    simp only [Std.ExtTreeSet.mem_insert, Std.LawfulEqOrd.compare_eq_iff_eq, not_or] at fresh
    rw [setAt_erase, if_neg fresh.1]
    exact h.rest x fresh.2
  visited x mem := by
    simp only [Std.ExtTreeSet.mem_insert, Std.LawfulEqOrd.compare_eq_iff_eq] at mem
    rw [setAt_erase]
    split
    · rfl
    · next other => exact h.visited x (mem.resolve_left other)

/-- A cell that has been looked at may as well not be on the stack. -/
theorem HoldsRest.finds_cons_of_mem (h : HoldsRest unread targets visited) (seen : a ∈ visited)
    (other : a ≠ goal) : finds goal unread (a :: stack) = finds goal unread stack := by
  apply finds_congr
  rintro c alive
  have different : c ≠ a := by
    rintro rfl
    exact alive.elim other fun edges => edges (h.visited c seen)
  rw [List.mem_cons, or_iff_right different]

/-- When a cell is looked at, those of its targets that have been looked at need not be put on the
stack, and the others may be put there in any order. -/
theorem HoldsRest.finds_cons_of_not_mem (h : HoldsRest unread targets visited)
    (fresh : a ∉ visited) (other : a ≠ goal) (unseen : goal ∉ visited.insert a) :
    finds goal unread (a :: stack) = finds goal (unread.erase a)
      ((targets a).filter (· ∉ visited.insert a) ++ stack) := by
  rw [finds, if_neg other]
  apply finds_congr
  intro c alive
  have left : c ∉ visited.insert a := by
    obtain rfl | edges := alive
    · exact unseen
    · exact fun mem => edges ((h.insert a).visited c mem)
  simp only [List.mem_append, List.mem_filter, (h.rest a fresh).mem_iff, left, not_false_eq_true,
    decide_true, and_true]

/-- The targets of a cell pay for their places on the stack with their edges. -/
theorem HoldsRest.edgeCount_eq (h : HoldsRest unread targets visited) (fresh : a ∉ visited) :
    edgeCount unread = (targets a).length + edgeCount (unread.erase a) := by
  rw [edgeCount_erase unread a, (h.rest a fresh).length_eq, Std.ExtTreeSet.length_toList]

/-- With a turn for each edge that is left and for each cell on the stack, and one more, the search
with a set comes to its answer, which is that of the search without. -/
theorem HoldsRest.search_eq (h : HoldsRest unread targets visited) (unseen : goal ∉ visited)
    (enough : edgeCount unread + stack.length < turns) :
    search targets goal turns stack visited = some (finds goal unread stack) := by
  induction turns generalizing stack visited unread with
  | zero => omega
  | succ turns ih =>
      cases stack with
      | nil => rw [search, finds]
      | cons a stack =>
          rw [List.length_cons] at enough
          rw [search]
          by_cases found : a = goal
          · rw [if_pos found, finds, if_pos found]
          rw [if_neg found]
          by_cases seen : a ∈ visited
          · rw [if_pos seen, h.finds_cons_of_mem seen found]
            exact ih h unseen (by omega)
          · have still : goal ∉ visited.insert a := by simpa [found] using unseen
            rw [if_neg seen, h.finds_cons_of_not_mem seen found still]
            apply ih (h.insert a) still
            have spent := h.edgeCount_eq seen
            have pushed := (targets a).length_filter_le (· ∉ visited.insert a)
            rw [List.length_append]
            omega

/-! ### Graphs built with the search -/

/-- Whether a graph is built edge by edge, none of which has been found to close a cycle. -/
inductive Guarded : Graph → Prop where
  | empty : Guarded .empty
  | add {g : Graph} {source target : Address} : g.Guarded → g.closesCycle source target = false →
      Guarded (g.add source target)

theorem Guarded.acyclic (h : g.Guarded) : g.Acyclic := by
  induction h with
  | empty =>
      intro a cycle
      obtain ⟨b, edge, -⟩ := Relation.TransGen.head'_iff.mp cycle
      exact not_edge_empty edge
  | add _ refused ih =>
      apply ih.add
      rw [← closesCycle_iff_reaches, refused]
      exact Bool.false_ne_true

/-- Whatever the graph, the search for a way back from an edge ends, in whatever order the targets of
a cell are listed: it needs no more than two turns and one for each edge of the graph. The answer is
yes exactly if the edge leads from a cell to itself or a path leads back, which is to say that the
edge lies on a cycle of the graph that has it. A graph built of edges for which the answer was no
has no cycles. -/
theorem closesCycle_decides (g : Graph) (source target : Address) :
    (∀ targets : Address → List Address, (∀ a, (targets a).Perm (g.readsOf a)) →
      ∀ turns, edgeCount g.reads + 2 ≤ turns →
        search targets source turns [target] ∅ = some (g.closesCycle source target)) ∧
    (g.closesCycle source target ↔ source = target ∨ Relation.TransGen g.Edge target source) ∧
    (g.closesCycle source target ↔ (g.add source target).OnCycle source target) ∧
    ∀ built : Graph, built.Guarded → built.Acyclic := by
  refine ⟨?_, ?_, ?_, fun built => Guarded.acyclic⟩
  · intro targets listed turns enough
    have start : HoldsRest g.reads targets ∅ :=
      ⟨fun a _ => listed a, fun a mem => absurd mem Std.ExtTreeSet.not_mem_empty⟩
    apply start.search_eq Std.ExtTreeSet.not_mem_empty
    rw [List.length_singleton]
    omega
  · rw [closesCycle_iff_reaches, Reaches, Relation.reflTransGen_iff_eq_or_transGen]
  · rw [closesCycle_iff_reaches, onCycle_add]

/-- A search from the first cell goes round the circle and ends without having found a cell that the
graph does not know. An edge from the circle to the first cell would close another cycle. -/
theorem closesCycle_decides_lasso :
    search (fun a => (lasso.readsOf a).reverse) ⟨9, 9⟩ 5 [⟨0, 0⟩] ∅ = some false ∧
    (lasso.add ⟨2, 0⟩ ⟨0, 0⟩).OnCycle ⟨2, 0⟩ ⟨0, 0⟩ ∧
    ((empty.add ⟨0, 0⟩ ⟨1, 0⟩).add ⟨1, 0⟩ ⟨2, 0⟩).Acyclic := by
  obtain ⟨ends, -, -, acyclic⟩ := closesCycle_decides lasso ⟨9, 9⟩ ⟨0, 0⟩
  obtain ⟨-, -, onCycle, -⟩ := closesCycle_decides lasso ⟨2, 0⟩ ⟨0, 0⟩
  have count : edgeCount lasso.reads = 3 := by decide +kernel
  have missed : lasso.closesCycle ⟨9, 9⟩ ⟨0, 0⟩ = false := by decide +kernel
  refine ⟨?_, onCycle.mp (by decide +kernel), acyclic _ ?_⟩
  · rw [ends _ (fun a => List.reverse_perm _) 5 (by omega), missed]
  · exact .add (.add .empty (by decide +kernel)) (by decide +kernel)

end Graph

end Spreadsheet
