import Mathlib.Data.List.Induction
import Spreadsheet.Proofs.Formula.Tree
import Spreadsheet.Proofs.Range.Cells
import Spreadsheet.Sheet.Basic

/-!
# What a formula mentions

Listing each address once, in the order in which they are first seen, neither loses nor adds an
address. What a sheet records as read by a formula is therefore all that the formula mentions.
-/

namespace Spreadsheet

/-- What has been found of a list that has been gone through one by one: its members, each of them
once and where it occurred first. -/
private theorem foldl_firstSeen (as : List Address) :
    let found := as.foldl (fun (found : AddressSet × List Address) a =>
      if a ∈ found.1 then found else (found.1.insert a, a :: found.2)) (∅, [])
    (∀ b, b ∈ found.1 ↔ b ∈ as) ∧ found.2.reverse = as.eraseDups := by
  induction as using List.reverseRecOn with
  | nil => simp
  | append_singleton as a ih =>
      obtain ⟨members, order⟩ := ih
      simp only [List.foldl_append, List.foldl_cons, List.foldl_nil, List.eraseDups_append,
        ← order, members]
      by_cases seen : a ∈ as
      · refine ⟨fun b => ?_, by simp [seen, List.removeAll]⟩
        rw [if_pos seen, members, List.mem_append, List.mem_singleton]
        constructor
        · exact .inl
        · rintro (before | rfl)
          · exact before
          · exact seen
      · refine ⟨fun b => ?_, by simp [seen, List.removeAll, List.eraseDups_cons]⟩
        rw [if_neg seen, Std.ExtTreeSet.mem_insert, members, List.mem_append, List.mem_singleton,
          Std.LawfulEqOrd.compare_eq_iff_eq, or_comm, eq_comm]

/-- Each address stays where it occurs first. -/
theorem firstSeen_eq_eraseDups (as : List Address) : firstSeen as = as.eraseDups :=
  (foldl_firstSeen as).2

theorem mem_firstSeen {as : List Address} {a : Address} : a ∈ firstSeen as ↔ a ∈ as := by
  rw [firstSeen_eq_eraseDups, List.mem_eraseDups]

namespace Expr

theorem mem_mentionsAll {extent : Option Range} {args : List Expr} {a : Address} :
    a ∈ mentionsAll extent args ↔ ∃ e ∈ args, a ∈ e.mentions extent := by
  induction args with
  | nil => simp [mentionsAll]
  | cons e es ih => simp [mentionsAll, ih]

/-- What a formula mentions inside an extent is what it mentions at all, as far as it lies inside. -/
theorem mentions_some (extent : Range) (e : Expr) :
    e.mentions (some extent) = (e.mentions none).filter extent.contains := by
  induction e with
  | number n => rfl
  | text s => rfl
  | boolean b => rfl
  | lost => rfl
  | cell r =>
      simp only [mentions, Option.all_some, Option.all_none, ↓reduceIte]
      by_cases inside : extent.contains r.address <;> simp [inside]
  | range first second => exact Range.cells_intersection
  | binary op left right hleft hright =>
      simp only [mentions, hleft, hright, List.filter_append]
  | negate operand ih => exact ih
  | call name args ih =>
      simp only [mentions]
      induction args with
      | nil => rfl
      | cons e es ihs =>
          simp only [mentionsAll, List.filter_append]
          rw [ih e List.mem_cons_self, ihs fun e he => ih e (List.mem_cons_of_mem _ he)]

/-- A formula that mentions no cell at all mentions none inside an extent. -/
theorem mentions_eq_nil_of_none {e : Expr} (h : e.mentions none = []) (extent : Option Range) :
    e.mentions extent = [] := by
  cases extent with
  | none => exact h
  | some extent => rw [mentions_some, h, List.filter_nil]

end Expr

/-- A formula of a sheet reads, as far as the sheet records it, what it mentions. -/
theorem Sheet.mem_readsOf {s : Sheet} {a b : Address} {source : String} {tree : Expr}
    (stored : s.get a = some (.formula source tree)) :
    b ∈ s.readsOf a ↔ b ∈ tree.mentions (some s.extent) := by
  have treeAt : s.treeAt a = some tree := by
    rw [Sheet.treeAt, stored]
    rfl
  rw [Sheet.readsOf, treeAt]
  exact mem_firstSeen

end Spreadsheet
