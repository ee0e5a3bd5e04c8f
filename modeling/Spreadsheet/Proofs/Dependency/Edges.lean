import Mathlib.Logic.Relation
import Mathlib.Tactic.Tauto
import Spreadsheet.Evaluation.Evaluator
import Spreadsheet.Proofs.Sheet.Lookup

/-!
# The edges of a graph

A graph is seen through its edges: which cell reads which. Recording and forgetting are described
by what they do to the edges, and the graph that is rebuilt from a sheet has exactly the edges
from each formula to the cells inside the extent that it mentions.
-/

namespace Spreadsheet

namespace Graph

variable {g : Graph} {a b c : Address}

/-- Whether a cell reads another. -/
def Edge (g : Graph) (a b : Address) : Prop :=
  b ∈ g.readsOf a

/-- Whether there is a path of edges, possibly of no length. -/
def Reaches (g : Graph) : Address → Address → Prop :=
  Relation.ReflTransGen g.Edge

theorem edge_iff_mem_setAt : g.Edge a b ↔ b ∈ setAt g.reads a :=
  Std.ExtTreeSet.mem_toList

/-- What a cell reads is listed row by row. -/
theorem pairwise_readsOf (g : Graph) (a : Address) : (g.readsOf a).Pairwise Address.Before :=
  Std.ExtTreeSet.ordered_toList

theorem not_edge_empty : ¬ Graph.empty.Edge a b := by
  rw [edge_iff_mem_setAt, setAt, Graph.empty, Std.ExtTreeMap.getD_empty]
  exact Std.ExtTreeSet.not_mem_empty

theorem setAt_insert (m : AddressMap AddressSet) (key a : Address) (set : AddressSet) :
    setAt (m.insert key set) a = if key = a then set else setAt m a := by
  simp [setAt, Std.ExtTreeMap.getD_insert]

theorem setAt_erase (m : AddressMap AddressSet) (key a : Address) :
    setAt (m.erase key) a = if key = a then ∅ else setAt m a := by
  simp [setAt, Std.ExtTreeMap.getD_erase]

theorem mem_setAt_addTo {m : AddressMap AddressSet} {key : Address} :
    b ∈ setAt (addTo m key c) a ↔ (a = key ∧ b = c) ∨ b ∈ setAt m a := by
  rw [addTo, setAt_insert]
  by_cases h : key = a
  · subst h
    simp [Std.ExtTreeSet.mem_insert, @eq_comm _ b c]
  · simp [h, Ne.symm h]

theorem mem_setAt_erase {m : AddressMap AddressSet} :
    b ∈ setAt (m.erase c) a ↔ a ≠ c ∧ b ∈ setAt m a := by
  rw [setAt_erase]
  by_cases h : c = a
  · subst h
    simp
  · simp [h, Ne.symm h]

theorem edge_add {source target : Address} :
    (g.add source target).Edge a b ↔ (a = source ∧ b = target) ∨ g.Edge a b := by
  simp only [edge_iff_mem_setAt, add, mem_setAt_addTo]

theorem edge_forget : (g.forget c).Edge a b ↔ a ≠ c ∧ g.Edge a b := by
  simp only [edge_iff_mem_setAt, forget, mem_setAt_erase]

/-- Recording all targets of one source. -/
theorem edge_addAll (source : Address) (targets : List Address) :
    (targets.foldl (fun g target => g.add source target) g).Edge a b ↔
      (a = source ∧ b ∈ targets) ∨ g.Edge a b := by
  induction targets generalizing g with
  | nil => simp
  | cons target targets ih =>
      rw [List.foldl_cons, ih, edge_add, List.mem_cons]
      tauto

end Graph

namespace Evaluator

variable {e : Evaluator} {s : Sheet} {a b c : Address}

theorem register_options : (e.register s c).options = e.options := rfl

/-- Registering a cell replaces its own edges and leaves all others alone. -/
theorem edge_register :
    (e.register s c).graph.Edge a b ↔ if a = c then b ∈ s.readsOf c else e.graph.Edge a b := by
  rw [register, Graph.edge_addAll, Graph.edge_forget]
  split <;> tauto

/-- Registering cells one after the other settles the edges of each of them. -/
theorem edge_registerAll (cells : List Address) :
    (cells.foldl (fun e a => e.register s a) e).graph.Edge a b ↔
      if a ∈ cells then b ∈ s.readsOf a else e.graph.Edge a b := by
  induction cells generalizing e with
  | nil => simp
  | cons c cells ih =>
      rw [List.foldl_cons, ih, edge_register]
      by_cases hc : a = c
      · subst hc
        simp
      · simp [hc]

theorem registerAll_options (cells : List Address) :
    (cells.foldl (fun e a => e.register s a) e).options = e.options := by
  induction cells generalizing e with
  | nil => rfl
  | cons c cells ih => rw [List.foldl_cons, ih, register_options]

@[simp] theorem rebuild_options : (e.rebuild s).options = e.options :=
  registerAll_options s.formulas

/-- Whatever the evaluator knew before, the rebuilt graph has the edges of the sheet. -/
theorem edge_rebuild : (e.rebuild s).graph.Edge a b ↔ b ∈ s.readsOf a := by
  rw [rebuild, edge_registerAll]
  split
  · rfl
  · next notFormula =>
      have none : s.treeAt a = none := by
        rw [Sheet.mem_formulas_iff_treeAt] at notFormula
        simpa using notFormula
      simp [Sheet.readsOf, none, Graph.not_edge_empty]

end Evaluator

end Spreadsheet
