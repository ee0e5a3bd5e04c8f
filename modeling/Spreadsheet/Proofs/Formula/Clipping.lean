import Spreadsheet.Proofs.Formula.Mentions

/-!
# Clipped references

The addresses that a formula reads inside an extent are listed from ranges that have been clipped,
so that whole columns need not be spread out. Nothing is lost and nothing changes places by that:
the list is the one of all addresses, without those outside the extent.
-/

namespace Spreadsheet

/-- An address at the end of a list is first seen there unless it has been seen before. -/
theorem firstSeen_concat (as : List Address) (a : Address) :
    firstSeen (as ++ [a]) = if a ∈ as then firstSeen as else firstSeen as ++ [a] := by
  rw [firstSeen_eq_eraseDups, firstSeen_eq_eraseDups, List.eraseDups_append]
  by_cases seen : a ∈ as <;> simp [seen, List.removeAll, List.eraseDups_cons]

theorem nodup_firstSeen (as : List Address) : (firstSeen as).Nodup := by
  induction as using List.reverseRecOn with
  | nil => exact List.nodup_nil
  | append_singleton as a ih =>
      rw [firstSeen_concat]
      split
      · exact ih
      · next fresh =>
          rw [← mem_firstSeen] at fresh
          simpa [List.nodup_append] using ⟨ih, fun b hb same => fresh (same ▸ hb)⟩

/-- It makes no difference whether addresses are left out before or after each of them is listed
once. -/
theorem firstSeen_filter (p : Address → Bool) (as : List Address) :
    firstSeen (as.filter p) = (firstSeen as).filter p := by
  induction as using List.reverseRecOn with
  | nil => rfl
  | append_singleton as a ih =>
      rw [firstSeen_concat, List.filter_append]
      by_cases keep : p a
      · have kept : [a].filter p = [a] := by simp [keep]
        have members : a ∈ as.filter p ↔ a ∈ as := by simp [keep]
        rw [kept, firstSeen_concat, ih]
        by_cases seen : a ∈ as
        · rw [if_pos seen, if_pos (members.mpr seen)]
        · rw [if_neg seen, if_neg (members.not.mpr seen), List.filter_append, kept]
      · have dropped : [a].filter p = [] := by simp [keep]
        rw [dropped, List.append_nil, ih]
        split
        · rfl
        · rw [List.filter_append, dropped, List.append_nil]

namespace Expr

/-- What a formula reads inside an extent is what it reads at all, less what lies outside. Every
address that the formula mentions is listed where it is mentioned first, and none is listed twice. -/
theorem readsWithin_eq_filter (e : Expr) (extent : Range) :
    e.readsWithin extent = e.reads.filter extent.contains ∧
      e.reads = (e.mentions none).eraseDups ∧ (e.readsWithin extent).Nodup := by
  refine ⟨?_, firstSeen_eq_eraseDups _, nodup_firstSeen _⟩
  calc firstSeen (e.mentions (some extent))
    _ = firstSeen ((e.mentions none).filter extent.contains) := by rw [mentions_some]
    _ = (firstSeen (e.mentions none)).filter extent.contains := firstSeen_filter _ _

end Expr

end Spreadsheet
