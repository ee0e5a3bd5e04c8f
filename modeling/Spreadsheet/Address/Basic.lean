import Spreadsheet.Grid
import Spreadsheet.Address.Column
import Std.Data.ExtTreeMap
import Std.Data.ExtTreeSet

/-!
# Addresses

An address names one place of the grid. Addresses are ordered row by row and, inside a row,
from left to right. Maps and sets of addresses are sorted in this order, so that whatever is
listed from one of them comes out row by row, and two of them with the same entries are equal.
-/

namespace Spreadsheet

/-- A place of the grid; both indices count from zero. -/
structure Address where
  row : Nat
  col : Nat
deriving DecidableEq, Repr

namespace Address

/-- The index of an address along an axis. -/
def along (a : Address) : Axis → Nat
  | .row => a.row
  | .col => a.col

@[simp] theorem along_row (a : Address) : a.along .row = a.row := rfl

@[simp] theorem along_col (a : Address) : a.along .col = a.col := rfl

/-- Row by row, and from left to right inside a row. -/
instance : Ord Address where
  compare := compareLex (compareOn Address.row) (compareOn Address.col)

instance : Std.TransOrd Address :=
  inferInstanceAs (Std.TransCmp (compareLex (compareOn Address.row) (compareOn Address.col)))

theorem compare_eq (a b : Address) :
    compare a b = (compare a.row b.row).then (compare a.col b.col) := rfl

instance : Std.LawfulEqOrd Address where
  eq_of_compare {a b} h := by
    rw [compare_eq, Ordering.then_eq_eq] at h
    obtain ⟨arow, acol⟩ := a
    obtain ⟨brow, bcol⟩ := b
    simp only [Std.LawfulEqOrd.compare_eq_iff_eq] at h
    simp [h.1, h.2]

/-- The address as text: the letters of its column, then its row counted from one. -/
def text (a : Address) : String :=
  String.ofList (Column.letters a.col ++ Nat.toDigits 10 (a.row + 1))

instance : ToString Address := ⟨text⟩

end Address

/-- A map from addresses, sorted row by row. -/
abbrev AddressMap (α : Type) := Std.ExtTreeMap Address α

/-- A set of addresses, sorted row by row. -/
abbrev AddressSet := Std.ExtTreeSet Address

namespace AddressMap

variable {α : Type}

theorem nodup_toList (m : AddressMap α) : m.toList.Nodup := by
  refine List.Pairwise.imp (fun distinct same => ?_) m.distinct_keys_toList
  exact distinct (by rw [same, Std.ReflOrd.compare_self])

/-- The entries of a map are an entry of it and those of the map without it. -/
theorem toList_perm_cons_erase {m : AddressMap α} {a : Address} {x : α} (h : m[a]? = some x) :
    m.toList.Perm ((a, x) :: (m.erase a).toList) := by
  have mem (b : Address) (y : α) : (b, y) ∈ (m.erase a).toList ↔ a ≠ b ∧ m[b]? = some y := by
    rw [Std.ExtTreeMap.mem_toList_iff_getElem?_eq_some, Std.ExtTreeMap.getElem?_erase]
    by_cases hab : a = b <;> simp [hab]
  have fresh : ((a, x) :: (m.erase a).toList).Nodup :=
    List.nodup_cons.mpr ⟨fun h => ((mem a x).mp h).1 rfl, nodup_toList _⟩
  refine (List.perm_ext_iff_of_nodup (nodup_toList m) fresh).mpr fun ⟨b, y⟩ => ?_
  rw [List.mem_cons, mem, Std.ExtTreeMap.mem_toList_iff_getElem?_eq_some, Prod.mk.injEq]
  by_cases hab : a = b
  · subst hab
    simp [h, eq_comm]
  · simp [hab, Ne.symm hab]

end AddressMap

end Spreadsheet
