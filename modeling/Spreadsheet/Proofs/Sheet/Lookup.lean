import Spreadsheet.Proofs.Address.Order
import Spreadsheet.Sheet.Basic

/-!
# Looking up cells

A sheet is seen through what is stored at each address. The other observers of a sheet, such as
the list of its formulas, are described here in terms of it.
-/

namespace Spreadsheet.Sheet

variable {s : Sheet} {a : Address}

theorem extent_contains (h : s.contains a) : s.extent.contains a := by
  have inside : a.row < s.rows ∧ a.col < s.cols := by simpa [contains] using h
  simp [extent, Range.contains, Range.spanning]
  omega

theorem mem_entries {c : Cell} : (a, c) ∈ s.entries ↔ s.get a = some c :=
  Std.ExtTreeMap.mem_toList_iff_getElem?_eq_some

/-- No two cells are stored at one address. -/
theorem pairwise_entries (s : Sheet) : s.entries.Pairwise fun x y => x.1 ≠ y.1 := by
  refine s.cells.distinct_keys_toList.imp fun different same => different ?_
  rw [same, Std.ReflOrd.compare_self]

theorem treeAt_eq_some {tree : Expr} :
    s.treeAt a = some tree ↔ ∃ source, s.get a = some (.formula source tree) := by
  unfold treeAt
  cases s.get a with
  | none => simp
  | some c => cases c <;> simp [Cell.tree?]

/-- A cell that is stored takes the place of what was stored at its address. -/
theorem eq_of_set {t : Sheet} {c : Cell} (stores : s.set a c = .ok t) :
    t = { s with cells := s.cells.insert a c } := by
  rw [set] at stores
  split at stores
  · cases stores
  · cases stores
    rfl

/-- The listed addresses are those at which a formula is stored. -/
theorem mem_formulas :
    a ∈ s.formulas ↔ ∃ source tree, s.get a = some (.formula source tree) := by
  simp only [formulas, List.mem_map, List.mem_filter, Prod.exists]
  constructor
  · rintro ⟨b, c, ⟨hc, isFormula⟩, rfl⟩
    rw [mem_entries] at hc
    cases c with
    | formula source tree => exact ⟨source, tree, hc⟩
    | literal v => simp [Cell.isFormula, Cell.tree?] at isFormula
    | error code message => simp [Cell.isFormula, Cell.tree?] at isFormula
  · rintro ⟨source, tree, h⟩
    exact ⟨a, _, ⟨mem_entries.mpr h, rfl⟩, rfl⟩

theorem mem_formulas_iff_treeAt : a ∈ s.formulas ↔ (s.treeAt a).isSome := by
  simp only [mem_formulas, Option.isSome_iff_exists, treeAt_eq_some]
  exact exists_comm

/-- Formulas are listed row by row. -/
theorem pairwise_formulas (s : Sheet) : s.formulas.Pairwise Address.Before :=
  List.pairwise_map.mpr (s.cells.ordered_keys_toList.filter _)

theorem nodup_formulas (s : Sheet) : s.formulas.Nodup :=
  s.pairwise_formulas.imp fun {a b} before same => by
    subst same
    exact Std.Irrefl.irrefl a before

/-! ### A line of cells -/

/-- Where cells are stored along a line that does not meet itself, each is found at its place. -/
theorem getElem?_ofList_line {line : Nat → Address} (apart : Function.Injective line)
    (cell : Nat → Cell) {n i : Nat} (h : i < n) :
    (Std.ExtTreeMap.ofList ((List.range n).map fun i => (line i, cell i)) compare)[line i]? =
      some (cell i) := by
  refine Std.ExtTreeMap.getElem?_ofList_of_mem (by simp) ?_ (List.mem_map.mpr ⟨i, ?_, rfl⟩)
  · rw [List.pairwise_map]
    refine List.nodup_range.imp fun distinct => ?_
    simpa using apart.ne distinct
  · exact List.mem_range.mpr h

theorem injective_firstColumn : Function.Injective fun row : Nat => (⟨row, 0⟩ : Address) :=
  fun _ _ same => congrArg Address.row same

/-! ### A single cell -/

/-- A sheet that holds one cell. -/
def holding (rows cols : Nat) (a : Address) (c : Cell) : Sheet :=
  { blank "holding" "Holding" rows cols with cells := (∅ : AddressMap Cell).insert a c }

theorem get_holding_eq_some_iff {rows cols : Nat} {b : Address} {c d : Cell} :
    (holding rows cols a c).get b = some d ↔ b = a ∧ d = c := by
  rw [get, holding, Std.ExtTreeMap.getElem?_insert]
  split
  · next same => simp [← Std.LawfulEqOrd.eq_of_compare same, eq_comm]
  · next other =>
      rw [Std.LawfulEqOrd.compare_eq_iff_eq] at other
      simp [Ne.symm other]

end Spreadsheet.Sheet
