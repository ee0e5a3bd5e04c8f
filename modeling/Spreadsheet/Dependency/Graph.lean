import Spreadsheet.Address.Basic

/-!
# The graph of references

The graph has an edge from each cell to every cell that it reads. Edges are kept in both
directions, so the cells that a cell reads and the cells that read it are both at hand. A cell
without edges in one direction has no entry there at all.
-/

namespace Spreadsheet

/-- Which cells read which. -/
structure Graph where
  /-- The cells that a cell reads. -/
  reads : AddressMap AddressSet := ∅
  /-- The cells that read a cell. -/
  readers : AddressMap AddressSet := ∅

namespace Graph

/-- The graph without edges. -/
def empty : Graph := {}

/-- The set stored for an address; no entry stands for the empty set. -/
def setAt (m : AddressMap AddressSet) (a : Address) : AddressSet :=
  m.getD a ∅

/-- The number of addresses in all sets. -/
def edgeCount (m : AddressMap AddressSet) : Nat :=
  m.toList.foldr (fun entry count => entry.2.size + count) 0

/-- Erasing the set stored for an address takes away as many edges as the set has elements. -/
theorem edgeCount_erase (m : AddressMap AddressSet) (a : Address) :
    edgeCount m = (setAt m a).size + edgeCount (m.erase a) := by
  rw [setAt, Std.ExtTreeMap.getD_eq_getD_getElem?]
  cases h : m[a]? with
  | none =>
    have same : m.erase a = m := Std.ExtTreeMap.ext_getElem? fun b => by
      rw [Std.ExtTreeMap.getElem?_erase]
      by_cases hab : a = b
      · simp [← hab, h]
      · simp [hab]
    simp [same]
  | some set =>
    have perm := AddressMap.toList_perm_cons_erase h
    rw [edgeCount, perm.foldr_eq' fun x _ y _ count => by omega]
    rfl

/-- Adds an address to the set stored for another. -/
def addTo (m : AddressMap AddressSet) (key a : Address) : AddressMap AddressSet :=
  m.insert key ((setAt m key).insert a)

/-- Takes an address out of the set stored for another. A set that becomes empty is dropped. -/
def dropFrom (m : AddressMap AddressSet) (key a : Address) : AddressMap AddressSet :=
  match m[key]? with
  | none => m
  | some set => if (set.erase a).isEmpty then m.erase key else m.insert key (set.erase a)

/-- Records that `source` reads `target`. -/
def add (g : Graph) (source target : Address) : Graph where
  reads := addTo g.reads source target
  readers := addTo g.readers target source

/-- Forgets everything that `source` reads. Other cells may still read `source`. -/
def forget (g : Graph) (source : Address) : Graph where
  reads := g.reads.erase source
  readers :=
    (setAt g.reads source).toList.foldl (fun m target => dropFrom m target source) g.readers

/-- The cells that a cell reads, row by row. -/
def readsOf (g : Graph) (a : Address) : List Address :=
  (setAt g.reads a).toList

/-- The cells that read a cell, row by row. -/
def readersOf (g : Graph) (a : Address) : List Address :=
  (setAt g.readers a).toList

/-- Whether there are no edges. -/
def isEmpty (g : Graph) : Bool :=
  g.reads.isEmpty

end Graph

end Spreadsheet
