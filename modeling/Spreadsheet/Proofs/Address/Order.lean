import Mathlib.Data.List.Sort
import Spreadsheet.Address.Basic

/-!
# The order of addresses

Whatever is listed from a map or a set of addresses is listed row by row. Two lists in this order
are equal as soon as they have the same members.
-/

namespace Spreadsheet.Address

variable {a b : Address}

/-- Whether an address comes before another one, row by row. -/
def Before (a b : Address) : Prop :=
  compare a b = .lt

theorem before_iff : a.Before b ↔ a.row < b.row ∨ a.row = b.row ∧ a.col < b.col := by
  rw [Before, compare_eq, Ordering.then_eq_lt]
  simp [Std.compare_eq_lt]

instance : Std.Irrefl Before where
  irrefl a h := by
    rw [before_iff] at h
    omega

instance : Std.Antisymm Before where
  antisymm a b h h' := by
    rw [before_iff] at h h'
    omega

/-- Nothing comes before the first address of the grid. -/
theorem eq_cons_of_origin_mem {as : List Address} (sorted : as.Pairwise Before)
    (h : ⟨0, 0⟩ ∈ as) : ∃ rest, as = ⟨0, 0⟩ :: rest := by
  cases as with
  | nil => cases h
  | cons a rest =>
      rcases List.mem_cons.mp h with rfl | behind
      · exact ⟨rest, rfl⟩
      · have before := before_iff.mp ((List.pairwise_cons.mp sorted).1 _ behind)
        simp at before

end Spreadsheet.Address
