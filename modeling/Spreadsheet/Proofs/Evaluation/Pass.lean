import Spreadsheet.Proofs.Dependency.Precedents

/-!
# A pass over a sheet

A pass settles cells one after the other and never revises an outcome. What is settled for a
cell is therefore the outcome of that cell given the cells in front of it, and cells that hold
no formula are never settled. Lists of cells are given with the latest first.
-/

namespace Spreadsheet.Evaluator

variable {e : Evaluator} {s : Sheet} {options : Options} {a b : Address}

/-- The outcomes behind a pass over cells. -/
def settleAll (s : Sheet) (options : Options) (cells : List Address) : Outcomes :=
  cells.foldr (fun a settled => settle s options settled a) ∅

/-- The cells of a sheet in the order of their evaluation, the latest first. -/
def passed (e : Evaluator) (s : Sheet) : List Address :=
  ((e.rebuild s).graph.order s.formulas).reverse

theorem evaluateSheet_outcomes :
    (e.evaluateSheet s).1 = settleAll s e.options (e.passed s) := by
  rw [settleAll, passed, List.foldr_reverse, evaluateSheet, rebuild_options]

theorem nodup_passed : (e.passed s).Nodup :=
  List.pairwise_reverse.mpr ((Graph.order_nodup s.formulas).imp Ne.symm)

theorem mem_passed (h : a ∈ s.formulas) : a ∈ e.passed s :=
  List.mem_reverse.mpr (Graph.mem_order h)

theorem getElem?_settle {settled : Outcomes} :
    (settle s options settled a)[b]? =
      if a = b ∧ a ∈ s.formulas then some (s.evaluateWith options settled a) else settled[b]? := by
  simp only [settle, Sheet.mem_formulas_iff_treeAt]
  split
  · next formula => simp [formula, Std.ExtTreeMap.getElem?_insert]
  · next formula => simp [formula]

/-- Nothing is settled for a cell that the pass has not come to. -/
theorem settleAll_of_not_mem {cells : List Address} (h : a ∉ cells) :
    (settleAll s options cells)[a]? = none := by
  induction cells with
  | nil => exact Std.ExtTreeMap.getElem?_empty
  | cons c cells ih =>
      rw [List.mem_cons, not_or] at h
      rw [settleAll, List.foldr_cons, getElem?_settle, if_neg fun hc => h.1 hc.1.symm]
      exact ih h.2

/-- Nothing is settled for a cell without a formula. -/
theorem settleAll_of_not_formula {cells : List Address} (h : a ∉ s.formulas) :
    (settleAll s options cells)[a]? = none := by
  induction cells with
  | nil => exact Std.ExtTreeMap.getElem?_empty
  | cons c cells ih =>
      rw [settleAll, List.foldr_cons, getElem?_settle, if_neg]
      · exact ih
      · rintro ⟨rfl, formula⟩
        exact h formula

/-- What is settled for a cell is not revised by cells that come later. -/
theorem settleAll_append {later earlier : List Address} (h : (later ++ earlier).Nodup)
    (ha : a ∈ earlier) :
    (settleAll s options (later ++ earlier))[a]? = (settleAll s options earlier)[a]? := by
  induction later with
  | nil => rfl
  | cons c later ih =>
      rw [List.cons_append, List.nodup_cons] at h
      have distinct : c ≠ a := by
        rintro rfl
        exact h.1 (List.mem_append_right later ha)
      rw [List.cons_append, settleAll, List.foldr_cons, getElem?_settle,
        if_neg fun hc => distinct hc.1]
      exact ih h.2

/-- The outcome of a formula is the one it has given the cells in front of it. -/
theorem settleAll_formula {later earlier : List Address} (h : (later ++ a :: earlier).Nodup)
    (ha : a ∈ s.formulas) :
    (settleAll s options (later ++ a :: earlier))[a]? =
      some (s.evaluateWith options (settleAll s options earlier) a) := by
  rw [settleAll_append h List.mem_cons_self, settleAll, List.foldr_cons, getElem?_settle,
    if_pos ⟨rfl, ha⟩]
  rfl

/-- A pass comes to each cell only once, so it has not come to it before. -/
theorem fresh_of_split {later earlier : List Address} (split : e.passed s = later ++ a :: earlier) :
    a ∉ earlier ∧ earlier.Nodup := by
  have nodup : (later ++ a :: earlier).Nodup := split ▸ nodup_passed
  exact List.nodup_cons.mp (List.nodup_append.mp nodup).2.1

/-- What a formula shows in the end is what it has given the outcomes in front of it. -/
theorem outcome_of_split {later earlier : List Address}
    (split : e.passed s = later ++ a :: earlier) (ha : a ∈ s.formulas) :
    (e.evaluateSheet s).1[a]? =
      some (s.evaluateWith e.options (settleAll s e.options earlier) a) := by
  rw [evaluateSheet_outcomes, split, settleAll_formula (split ▸ nodup_passed) ha]

/-- A cell of the pass and the cells in front of it. -/
theorem exists_split (ha : a ∈ s.formulas) :
    ∃ later earlier, e.passed s = later ++ a :: earlier :=
  List.append_of_mem (mem_passed ha)

/-- The outcomes of a pass belong to the formulas of the sheet, and each formula has one. -/
theorem mem_evaluateSheet : a ∈ (e.evaluateSheet s).1 ↔ a ∈ s.formulas := by
  rw [evaluateSheet_outcomes, Std.ExtTreeMap.mem_iff_isSome_getElem?]
  constructor
  · intro settled
    by_cases formula : a ∈ s.formulas
    · exact formula
    · simp [settleAll_of_not_formula formula] at settled
  · intro formula
    obtain ⟨later, earlier, split⟩ := exists_split (e := e) formula
    rw [split, settleAll_formula (split ▸ nodup_passed) formula]
    rfl

end Spreadsheet.Evaluator
