import Spreadsheet.Proofs.Dependency.Inverse
import Spreadsheet.Proofs.Evaluation.Solution

/-!
# The graph keeps up with the sheet

A pass leaves behind the graph of its sheet, whatever the evaluator knew before. From then on the
graph can be kept up to date: whenever a cell has changed, its own edges are replaced, and the edges
of other cells into it stay. However many cells change in this way, the graph is the one that a new
pass would build from scratch.
-/

namespace Spreadsheet

namespace Sheet

variable {s t : Sheet} {a b : Address}

/-- What a sheet may be after one change at an address. -/
inductive ChangedAt (s : Sheet) (a : Address) : Sheet → Prop where
  /-- A cell of any kind is stored. -/
  | stored {c : Cell} {t : Sheet} : s.set a c = .ok t → ChangedAt s a t
  /-- The address lies outside the extent, and nothing is stored. -/
  | refused {c : Cell} {fault : AddressError} : s.set a c = .error fault → ChangedAt s a s
  /-- Whatever is stored is taken out. -/
  | removed : ChangedAt s a (s.remove a)

theorem ChangedAt.extent_eq (h : s.ChangedAt a t) : t.extent = s.extent := by
  cases h with
  | stored stores =>
      rw [eq_of_set stores]
      rfl
  | refused _ => rfl
  | removed => rfl

/-- A change leaves every other cell alone. -/
theorem ChangedAt.get_eq (h : s.ChangedAt a t) (other : b ≠ a) : t.get b = s.get b := by
  have apart : ¬ compare a b = .eq := by simpa using Ne.symm other
  cases h with
  | stored stores =>
      rw [eq_of_set stores, get, Std.ExtTreeMap.getElem?_insert, if_neg apart, get]
  | refused _ => rfl
  | removed => rw [remove, get, Std.ExtTreeMap.getElem?_erase, if_neg apart, get]

theorem ChangedAt.readsOf_eq (h : s.ChangedAt a t) (other : b ≠ a) :
    t.readsOf b = s.readsOf b := by
  rw [readsOf, readsOf, treeAt, treeAt, h.get_eq other, h.extent_eq]

end Sheet

namespace Graph

variable {g g' : Graph} {s : Sheet}

/-- Whether a graph is the graph of a sheet: consistent, and with the edges that the formulas of
the sheet say. -/
structure Records (g : Graph) (s : Sheet) : Prop where
  consistent : g.Consistent
  edges : ∀ a b, g.Edge a b ↔ s.Reads a b

/-- A sheet has only one graph. -/
theorem Records.unique (h : g.Records s) (h' : g'.Records s) : g = g' :=
  h.consistent.ext h'.consistent fun a b => (h.edges a b).trans (h'.edges a b).symm

end Graph

namespace Evaluator

variable {e : Evaluator} {s t : Sheet} {a : Address}

theorem consistent_register (h : e.graph.Consistent) : (e.register s a).graph.Consistent :=
  (h.forget a).addAll a (s.readsOf a)

theorem consistent_registerAll (cells : List Address) (h : e.graph.Consistent) :
    (cells.foldl (fun e a => e.register s a) e).graph.Consistent := by
  induction cells generalizing e with
  | nil => exact h
  | cons c cells ih => exact ih (consistent_register h)

/-- A pass leaves the graph of its sheet. -/
theorem records_evaluateSheet (e : Evaluator) (s : Sheet) :
    (e.evaluateSheet s).2.graph.Records s where
  consistent := consistent_registerAll s.formulas Graph.consistent_empty
  edges _ _ := edge_rebuild

/-- One step of keeping a graph up to date: a cell of the sheet changes, and the evaluator registers
it. If it does not hold a formula any more, its edges may just as well be dropped. -/
inductive Upkeep : Sheet × Evaluator → Sheet × Evaluator → Prop where
  | register {s t : Sheet} {e : Evaluator} {a : Address} : s.ChangedAt a t →
      Upkeep (s, e) (t, e.register t a)
  | unregister {s t : Sheet} {e : Evaluator} {a : Address} : s.ChangedAt a t → a ∉ t.formulas →
      Upkeep (s, e) (t, e.unregister a)

theorem records_register (change : s.ChangedAt a t) (h : e.graph.Records s) :
    (e.register t a).graph.Records t where
  consistent := consistent_register h.consistent
  edges c b := by
    rw [edge_register]
    split
    · next here => rw [here, Sheet.Reads]
    · next other => rw [h.edges, Sheet.Reads, Sheet.Reads, change.readsOf_eq other]

/-- Registering a cell without a formula drops its edges. -/
theorem register_of_not_formula (gone : a ∉ t.formulas) : e.register t a = e.unregister a := by
  have nothing : t.readsOf a = [] := by
    apply List.eq_nil_iff_forall_not_mem.mpr
    intro b reads
    exact gone (Sheet.Reads.mem_formulas reads)
  rw [register, nothing, List.foldl_nil, unregister]

/-- A step of upkeep leads from the graph of a sheet to the graph of the changed sheet. -/
theorem Upkeep.records {before after : Sheet × Evaluator} (step : Upkeep before after)
    (h : before.2.graph.Records before.1) : after.2.graph.Records after.1 := by
  cases step with
  | register change => exact records_register change h
  | unregister change gone =>
      rw [← register_of_not_formula gone]
      exact records_register change h

theorem records_of_upkeep {before after : Sheet × Evaluator}
    (steps : Relation.ReflTransGen Upkeep before after)
    (h : before.2.graph.Records before.1) : after.2.graph.Records after.1 := by
  induction steps with
  | refl => exact h
  | tail _ step ih => exact step.records ih

/-- A pass has an outcome for each formula and leaves exactly the edges from formulas to the cells
inside the extent that they mention, kept consistently in both directions. An evaluator with that
graph keeps up with any changes of the sheet: what it has in the end is the graph that a pass over
the changed sheet leaves. -/
theorem evaluateSheet_tracks (e : Evaluator) (s : Sheet) :
    (∀ a b, (e.evaluateSheet s).2.graph.Edge a b ↔
      ∃ source tree, s.get a = some (.formula source tree) ∧ b ∈ tree.readsWithin s.extent) ∧
    (e.evaluateSheet s).2.graph.Consistent ∧
    (∀ a, a ∈ (e.evaluateSheet s).1 ↔ ∃ source tree, s.get a = some (.formula source tree)) ∧
    ∀ (d : Evaluator) (t : Sheet) (d' e' : Evaluator), d.graph = (e.evaluateSheet s).2.graph →
      Relation.ReflTransGen Upkeep (s, d) (t, d') → d'.graph = (e'.evaluateSheet t).2.graph := by
  have records : (e.evaluateSheet s).2.graph.Records s := records_evaluateSheet e s
  refine ⟨?_, records.consistent, ?_, ?_⟩
  · intro a b
    rw [records.edges, Sheet.reads_iff]
  · intro a
    rw [mem_evaluateSheet, Sheet.mem_formulas]
  · intro d t d' e' same steps
    have start : d.graph.Records s := by rwa [same]
    have kept : d'.graph.Records t := records_of_upkeep steps start
    exact kept.unique (records_evaluateSheet e' t)

end Evaluator

/-- The ladder with another formula on its second step. -/
def Sheet.rewired : Sheet :=
  { Sheet.ladder with cells := Sheet.ladder.cells.insert ⟨1, 0⟩ (.ofFormula "=B1*2") }

/-- An evaluator behind a pass over the ladder. -/
def Evaluator.onLadder : Evaluator :=
  (({} : Evaluator).evaluateSheet Sheet.ladder).2

/-- The second step of the ladder gets another formula, and then the third one, which reads the
second one, is removed. -/
theorem Evaluator.evaluateSheet_tracks_ladder :
    Relation.ReflTransGen Upkeep (Sheet.ladder, onLadder) (Sheet.rewired.remove ⟨2, 0⟩,
      (onLadder.register Sheet.rewired ⟨1, 0⟩).unregister ⟨2, 0⟩) ∧
    ((onLadder.register Sheet.rewired ⟨1, 0⟩).unregister ⟨2, 0⟩).graph =
      (({} : Evaluator).evaluateSheet (Sheet.rewired.remove ⟨2, 0⟩)).2.graph := by
  have rewired : Sheet.ladder.ChangedAt ⟨1, 0⟩ Sheet.rewired :=
    .stored (c := .ofFormula "=B1*2") rfl
  have gone : ⟨2, 0⟩ ∉ (Sheet.rewired.remove ⟨2, 0⟩).formulas := by decide +kernel
  have first : Upkeep (Sheet.ladder, onLadder)
      (Sheet.rewired, onLadder.register Sheet.rewired ⟨1, 0⟩) := .register rewired
  have steps := (Relation.ReflTransGen.single first).tail (.unregister .removed gone)
  exact ⟨steps, (evaluateSheet_tracks {} Sheet.ladder).2.2.2 onLadder _ _ {} rfl steps⟩

end Spreadsheet
