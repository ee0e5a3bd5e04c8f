import Mathlib.Data.Finset.Filter
import Mathlib.Data.Finset.Insert
import Spreadsheet.Proofs.Dependency.Edges

/-!
# Both directions of the edges

A graph keeps every edge twice: with the cell that reads and with the cell that is read. Forgetting
a cell takes its edges out of the first map as a whole and has to find each of them in the second
one. Whatever is recorded and forgotten, the two maps stay inverse to each other and hold no empty
set. So the entries of the maps say no more than the edges do, and two such graphs with the same
edges are equal.

What the edges are after some changes is also said without any map, by a set of pairs.
-/

namespace Spreadsheet

namespace Graph

variable {g g' : Graph} {m m' : AddressMap AddressSet} {a b c : Address}

/-! ### Maps without empty sets -/

/-- Whether a map stores no empty set. -/
def Filled (m : AddressMap AddressSet) : Prop :=
  ∀ a : Address, m[a]? ≠ some ∅

theorem setAt_eq (m : AddressMap AddressSet) (a : Address) : setAt m a = (m[a]?).getD ∅ :=
  Std.ExtTreeMap.getD_eq_getD_getElem?

/-- An address has an entry in such a map exactly when its set is not empty. -/
theorem Filled.getElem?_eq (filled : Filled m) (a : Address) :
    m[a]? = if setAt m a = ∅ then none else some (setAt m a) := by
  rw [setAt_eq]
  cases stored : m[a]? with
  | none => simp
  | some set =>
      have nonempty : set ≠ ∅ := by
        intro empty
        exact filled a (by rw [stored, empty])
      simp [nonempty]

/-- Such a map is given by its sets. -/
theorem Filled.ext (filled : Filled m) (filled' : Filled m')
    (same : ∀ a, setAt m a = setAt m' a) : m = m' := by
  apply Std.ExtTreeMap.ext_getElem?
  intro a
  rw [filled.getElem?_eq, filled'.getElem?_eq, same]

theorem filled_empty : Filled ∅ := by
  intro a
  simp

theorem Filled.insert (filled : Filled m) {set : AddressSet} (nonempty : set ≠ ∅) :
    Filled (m.insert a set) := by
  intro b stored
  rw [Std.ExtTreeMap.getElem?_insert] at stored
  split at stored
  · exact nonempty (Option.some.inj stored)
  · exact filled b stored

theorem Filled.erase (filled : Filled m) : Filled (m.erase a) := by
  intro b stored
  rw [Std.ExtTreeMap.getElem?_erase] at stored
  split at stored
  · cases stored
  · exact filled b stored

theorem Filled.addTo (filled : Filled m) : Filled (addTo m a b) :=
  filled.insert Std.ExtTreeSet.insert_ne_empty

theorem Filled.dropFrom (filled : Filled m) : Filled (dropFrom m a b) := by
  rw [Graph.dropFrom]
  split
  · exact filled
  · split
    · exact filled.erase
    · next kept =>
        apply filled.insert
        intro empty
        exact kept (Std.ExtTreeSet.isEmpty_iff.mpr empty)

theorem Filled.dropAll (filled : Filled m) (source : Address) (targets : List Address) :
    Filled (targets.foldl (fun m target => Graph.dropFrom m target source) m) := by
  induction targets generalizing m with
  | nil => exact filled
  | cons target targets ih => exact ih filled.dropFrom

/-! ### Dropping addresses from sets -/

/-- A set loses the address that is dropped from it, and no other set changes. -/
theorem setAt_dropFrom (m : AddressMap AddressSet) (key a c : Address) :
    setAt (dropFrom m key c) a = if key = a then (setAt m a).erase c else setAt m a := by
  rw [dropFrom]
  cases stored : m[key]? with
  | none =>
      have nothing : setAt m key = ∅ := by rw [setAt_eq, stored, Option.getD_none]
      dsimp only
      split
      · next here => rw [← here, nothing, Std.ExtTreeSet.erase_empty]
      · rfl
  | some set =>
      have whole : setAt m key = set := by rw [setAt_eq, stored, Option.getD_some]
      dsimp only
      split
      · next emptied =>
          rw [setAt_erase]
          split
          · next here => rw [← here, whole, Std.ExtTreeSet.isEmpty_iff.mp emptied]
          · rfl
      · rw [setAt_insert]
        split
        · next here => rw [← here, whole]
        · rfl

/-- Dropping one address from several sets. -/
theorem mem_setAt_dropAll (source : Address) (targets : List Address) :
    a ∈ setAt (targets.foldl (fun m target => dropFrom m target source) m) b ↔
      ¬ (b ∈ targets ∧ a = source) ∧ a ∈ setAt m b := by
  induction targets generalizing m with
  | nil => simp
  | cons target targets ih =>
      rw [List.foldl_cons, ih, setAt_dropFrom, List.mem_cons]
      by_cases here : target = b
      · subst here
        simp only [↓reduceIte, Std.ExtTreeSet.mem_erase, ne_eq, Std.LawfulEqOrd.compare_eq_iff_eq,
          true_or, true_and, @eq_comm _ source a]
        tauto
      · simp only [here, Ne.symm here, ↓reduceIte, false_or]

/-! ### Changes of a graph -/

/-- What holds of the two maps of a graph. -/
structure Consistent (g : Graph) : Prop where
  inverse : ∀ a b, a ∈ g.readersOf b ↔ g.Edge a b
  reads_filled : Filled g.reads
  readers_filled : Filled g.readers

theorem mem_readersOf : a ∈ g.readersOf b ↔ a ∈ setAt g.readers b :=
  Std.ExtTreeSet.mem_toList

theorem consistent_empty : Consistent .empty where
  inverse a b := by
    have unread : a ∉ Graph.empty.readersOf b := by
      rw [mem_readersOf, setAt_eq, Graph.empty]
      simp
    exact iff_of_false unread not_edge_empty
  reads_filled := filled_empty
  readers_filled := filled_empty

theorem Consistent.add (h : g.Consistent) (source target : Address) :
    (g.add source target).Consistent where
  inverse a b := by
    rw [mem_readersOf, edge_add, ← h.inverse, mem_readersOf, Graph.add, mem_setAt_addTo,
      and_comm]
  reads_filled := h.reads_filled.addTo
  readers_filled := h.readers_filled.addTo

/-- Each edge of the cell that is forgotten is found in the map of the readers, and edges into that
cell stay. -/
theorem Consistent.forget (h : g.Consistent) (source : Address) :
    (g.forget source).Consistent where
  inverse a b := by
    have listed : b ∈ (setAt g.reads source).toList ↔ g.Edge source b := Iff.rfl
    rw [mem_readersOf, edge_forget, Graph.forget, mem_setAt_dropAll, listed, ← mem_readersOf,
      h.inverse]
    constructor
    · rintro ⟨kept, edge⟩
      refine ⟨?_, edge⟩
      rintro rfl
      exact kept ⟨edge, rfl⟩
    · rintro ⟨apart, edge⟩
      exact ⟨fun gone => apart gone.2, edge⟩
  reads_filled := h.reads_filled.erase
  readers_filled := h.readers_filled.dropAll source _

theorem Consistent.addAll (h : g.Consistent) (source : Address) (targets : List Address) :
    (targets.foldl (fun g target => g.add source target) g).Consistent := by
  induction targets generalizing g with
  | nil => exact h
  | cons target targets ih => exact ih (h.add source target)

/-- Two graphs with the same edges are equal. -/
theorem Consistent.ext (h : g.Consistent) (h' : g'.Consistent)
    (same : ∀ a b, g.Edge a b ↔ g'.Edge a b) : g = g' := by
  have reads : g.reads = g'.reads := by
    apply h.reads_filled.ext h'.reads_filled
    intro a
    apply Std.ExtTreeSet.ext_mem
    intro b
    rw [← edge_iff_mem_setAt, ← edge_iff_mem_setAt, same]
  have readers : g.readers = g'.readers := by
    apply h.readers_filled.ext h'.readers_filled
    intro b
    apply Std.ExtTreeSet.ext_mem
    intro a
    rw [← mem_readersOf, ← mem_readersOf, h.inverse, h'.inverse, same]
  cases g
  cases g'
  cases reads
  cases readers
  rfl

/-- Without edges neither map has an entry. -/
theorem Consistent.isEmpty_iff (h : g.Consistent) :
    g.isEmpty ↔ ∀ a, g.readsOf a = [] ∧ g.readersOf a = [] := by
  rw [Graph.isEmpty, Std.ExtTreeMap.isEmpty_iff]
  constructor
  · intro empty a
    have noEdge : ∀ c b, ¬ g.Edge c b := by
      intro c b
      rw [edge_iff_mem_setAt, empty, setAt_eq]
      simp
    constructor
    · exact List.eq_nil_iff_forall_not_mem.mpr fun b edge => noEdge a b edge
    · exact List.eq_nil_iff_forall_not_mem.mpr fun b reader =>
        noEdge b a ((h.inverse b a).mp reader)
  · intro noEdge
    apply h.reads_filled.ext filled_empty
    intro a
    have none : setAt g.reads a = ∅ := Std.ExtTreeSet.toList_eq_nil_iff.mp (noEdge a).1
    rw [none, setAt_eq]
    simp

/-- One change of a graph. -/
inductive Change where
  /-- It is recorded that `source` reads `target`. -/
  | add (source target : Address)
  /-- Everything that `source` reads is forgotten. -/
  | forget (source : Address)
  /-- All edges are dropped. -/
  | clear
deriving DecidableEq, Repr

/-- The graph behind a change. -/
def Change.apply (g : Graph) : Change → Graph
  | add source target => g.add source target
  | forget source => g.forget source
  | clear => .empty

/-- The graph behind some changes of the graph without edges. -/
def after (changes : List Change) : Graph :=
  changes.foldl Change.apply .empty

/-- The edges behind a change, as pairs of a cell and one that it reads. -/
def Change.applyEdges (edges : Finset (Address × Address)) : Change → Finset (Address × Address)
  | add source target => insert (source, target) edges
  | forget source => edges.filter fun edge => edge.1 ≠ source
  | clear => ∅

/-- The edges behind some changes if there are none before. -/
def edgesAfter (changes : List Change) : Finset (Address × Address) :=
  changes.foldl Change.applyEdges ∅

theorem Change.consistent_apply (change : Change) (h : g.Consistent) :
    (change.apply g).Consistent := by
  cases change with
  | add source target => exact h.add source target
  | forget source => exact h.forget source
  | clear => exact consistent_empty

theorem Change.edge_apply {edges : Finset (Address × Address)} (change : Change)
    (same : ∀ a b, g.Edge a b ↔ (a, b) ∈ edges) (a b : Address) :
    (change.apply g).Edge a b ↔ (a, b) ∈ change.applyEdges edges := by
  cases change with
  | add source target => simp [apply, applyEdges, edge_add, same]
  | forget source => simp [apply, applyEdges, edge_forget, same, and_comm]
  | clear => simp [apply, applyEdges, not_edge_empty]

/-- A run of changes keeps the graph consistent and its edges in step with a set of pairs. -/
theorem foldl_apply {edges : Finset (Address × Address)} (changes : List Change)
    (h : g.Consistent) (same : ∀ a b, g.Edge a b ↔ (a, b) ∈ edges) :
    (changes.foldl Change.apply g).Consistent ∧
      ∀ a b, (changes.foldl Change.apply g).Edge a b ↔
        (a, b) ∈ changes.foldl Change.applyEdges edges := by
  induction changes generalizing g edges with
  | nil => exact ⟨h, same⟩
  | cons change changes ih => exact ih (change.consistent_apply h) (change.edge_apply same)

/-- Whatever is recorded, forgotten and dropped: the two maps are inverse to each other and hold no
empty set, the graph counts as empty exactly when no cell reads or is read, and its edges are those
that the changes leave of a set of pairs. -/
theorem consistent_after (changes : List Change) :
    (after changes).Consistent ∧
      ((after changes).isEmpty ↔
        ∀ a, (after changes).readsOf a = [] ∧ (after changes).readersOf a = []) ∧
      ∀ a b, b ∈ (after changes).readsOf a ↔ (a, b) ∈ edgesAfter changes := by
  have none : ∀ a b, Graph.empty.Edge a b ↔ (a, b) ∈ (∅ : Finset (Address × Address)) := by
    intro a b
    simp [not_edge_empty]
  obtain ⟨consistent, edges⟩ := foldl_apply changes consistent_empty none
  exact ⟨consistent, consistent.isEmpty_iff, edges⟩

end Graph

end Spreadsheet
