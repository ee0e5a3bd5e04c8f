import Spreadsheet.Proofs.Formula.Leaves
import Spreadsheet.Proofs.Formula.Mentions

/-!
# What a formula points at

The leaves of a formula point at single cells and at rectangles between two ends. Which cells a
formula mentions, and what becomes of it when its references are redirected, depends on these
targets only.
-/

namespace Spreadsheet

open Formula

/-- What a leaf of a formula points at: one cell, or the rectangle between two ends. -/
inductive Target where
  | lone (r : Reference)
  | pair (first second : Reference)
deriving DecidableEq

namespace Target

/-- The references that a target is written with. -/
def ends : Target → List Reference
  | lone r => [r]
  | pair first second => [first, second]

/-- The cells that a target covers. -/
def range : Target → Range
  | lone r => Range.single r.address
  | pair first second => Reference.rectangle first second

/-- Where a redirection takes a target. -/
def redirect (f : Redirection) : Target → Option Target
  | lone r => (f.lone r).map lone
  | pair first second => (f.pair first second).map fun moved => pair moved.1 moved.2

/-- A range holds all cells that a target covers if it holds the ends of the target. -/
theorem contains_of_ends {t : Target} {r : Range} (h : ∀ e ∈ t.ends, r.contains e.address)
    {a : Address} (ha : t.range.contains a) : r.contains a := by
  cases t with
  | lone e =>
      rw [range, Range.contains_single] at ha
      subst ha
      exact h e List.mem_cons_self
  | pair first second =>
      exact Range.contains_of_spanning (h first (by simp [ends])) (h second (by simp [ends])) ha

end Target

namespace Expr

mutual

/-- The targets of a formula, in order and with repetitions. -/
def targets : Expr → List Target
  | .cell r => [.lone r]
  | .range first second => [.pair first second]
  | .binary _ left right => left.targets ++ right.targets
  | .negate operand => operand.targets
  | .call _ args => targetsAll args
  | .number _ => []
  | .text _ => []
  | .boolean _ => []
  | .lost => []

/-- The targets of a list of formulas. -/
def targetsAll : List Expr → List Target
  | [] => []
  | e :: es => e.targets ++ targetsAll es

end

variable {f : Redirection} {e : Expr} {args : List Expr} {extent : Range} {a : Address}

theorem targetsAll_eq_flatMap (args : List Expr) : targetsAll args = args.flatMap targets := by
  induction args with
  | nil => rfl
  | cons e es ih => rw [targetsAll, ih, List.flatMap_cons]

/-- A formula mentions the cells inside the extent that its targets cover. -/
theorem mem_mentions : a ∈ e.mentions (some extent) ↔
    extent.contains a ∧ ∃ t ∈ e.targets, t.range.contains a := by
  induction e with
  | number n => simp [mentions, targets]
  | text s => simp [mentions, targets]
  | boolean b => simp [mentions, targets]
  | lost => simp [mentions, targets]
  | cell r =>
      simp only [mentions, targets, Option.all_some, List.mem_singleton, exists_eq_left,
        Target.range, Range.contains_single]
      split <;> grind
  | range first second =>
      simp only [mentions, targets, Range.clip, List.mem_singleton, exists_eq_left, Target.range,
        Range.mem_cells_intersection]
      exact and_comm
  | binary op left right hleft hright =>
      simp only [mentions, targets, List.mem_append, hleft, hright, or_and_right, exists_or,
        and_or_left]
  | negate operand ih => exact ih
  | call name args ih =>
      simp only [mentions, targets, targetsAll_eq_flatMap, mem_mentionsAll, List.mem_flatMap]
      constructor
      · rintro ⟨e, he, mentioned⟩
        obtain ⟨inside, t, ht, covered⟩ := (ih e he).mp mentioned
        exact ⟨inside, t, ⟨e, he, ht⟩, covered⟩
      · rintro ⟨inside, t, ⟨e, he, ht⟩, covered⟩
        exact ⟨e, he, (ih e he).mpr ⟨inside, t, ht, covered⟩⟩

/-- The targets of a redirected formula are those that the redirection keeps. -/
theorem targets_redirect (f : Redirection) (e : Expr) :
    (e.redirect f).targets = e.targets.filterMap (Target.redirect f) := by
  induction e with
  | number n => rw [redirect, targets, List.filterMap_nil]
  | text s => rw [redirect, targets, List.filterMap_nil]
  | boolean b => rw [redirect, targets, List.filterMap_nil]
  | lost => rw [redirect, targets, List.filterMap_nil]
  | cell r =>
      rw [redirect, targets, List.filterMap_cons, List.filterMap_nil, Target.redirect]
      cases f.lone r <;> rfl
  | range first second =>
      rw [redirect, targets, List.filterMap_cons, List.filterMap_nil, Target.redirect]
      cases f.pair first second <;> rfl
  | binary op left right hleft hright =>
      rw [redirect, targets, targets, hleft, hright, List.filterMap_append]
  | negate operand ih =>
      rw [redirect, targets, ih, targets]
  | call name args ih =>
      rw [redirect, targets, targets, targetsAll_eq_flatMap, targetsAll_eq_flatMap,
        List.flatMap_map, List.filterMap_flatMap]
      exact List.flatMap_congr ih

end Expr

end Spreadsheet
