import Spreadsheet.Proofs.Evaluation.Solution

/-!
# A cell depends on what it reads

What a cell is worth is decided by the cells that references lead to from there. Two sheets that
store the same at all of these give the cell the same result, to the wording of a failure, whatever
else they store.

Evaluated alone the cell is read in the same steps on both sheets, circles included. Passes over the
two sheets may go in different orders and settle different cells, but without circles every outcome
is what the equations of the sheet make of the outcomes below it. These are compared along the
references, not along the passes.
-/

namespace Spreadsheet

namespace Sheet

variable {s t : Sheet} {options : Options} {a b : Address}

/-- Whether two sheets of the same extent store the same at a cell and wherever references lead from
it. -/
structure SameBelow (s t : Sheet) (a : Address) : Prop where
  extent : s.extent = t.extent
  stored : ∀ b, Relation.ReflTransGen s.Reads a b → s.get b = t.get b

theorem SameBelow.of_reads (h : s.SameBelow t a) (reads : s.Reads a b) : s.SameBelow t b where
  extent := h.extent
  stored c path := h.stored c (path.head reads)

theorem SameBelow.mem_formulas (h : s.SameBelow t a) : a ∈ s.formulas ↔ a ∈ t.formulas := by
  rw [Sheet.mem_formulas, Sheet.mem_formulas, h.stored a .refl]

/-- Following a cell gives the same on both sheets if the cells that it mentions read the same. -/
theorem SameBelow.follow_eq (h : s.SameBelow t a) {read read' : Address → Except Failure Value}
    (same : ∀ b, s.Reads a b → read b = read' b) :
    s.follow options read a = t.follow options read' a := by
  rw [follow, follow, ← h.stored a .refl, ← h.extent]
  cases stored : s.get a with
  | none => rfl
  | some c =>
      cases c with
      | literal v => rfl
      | error code message => rfl
      | formula source tree =>
          apply Expr.value_congr
          intro b mentioned
          exact same b ((mem_readsOf stored).mpr mentioned)

theorem SameBelow.read_eq (h : s.SameBelow t a) (room : Nat) (chain : List Address) :
    s.read options ∅ room chain a = t.read options ∅ room chain a := by
  have unsettled (c : Address) : (∅ : Outcomes)[c]? = none := Std.ExtTreeMap.getElem?_empty
  induction room using Nat.strongRecOn generalizing chain a with
  | ind room ih =>
  by_cases met : a ∈ chain
  · rw [read_of_mem_chain (unsettled a) met, read_of_mem_chain (unsettled a) met]
  · cases room with
    | zero => rw [read_of_full (unsettled a) met, read_of_full (unsettled a) met]
    | succ room =>
        rw [read_succ (unsettled a) met, read_succ (unsettled a) met]
        apply h.follow_eq
        intro b reads
        exact ih room (Nat.lt_succ_self room) (h.of_reads reads) (a :: chain)

theorem SameBelow.evaluate_eq (h : s.SameBelow t a) (options : Options) :
    s.evaluate options a = t.evaluate options a := by
  have value : s.follow options (s.read options ∅ (maxChain - 1) [a]) a =
      t.follow options (t.read options ∅ (maxChain - 1) [a]) a := by
    apply h.follow_eq
    intro b reads
    exact (h.of_reads reads).read_eq _ _
  rw [follow, follow, ← h.stored a .refl] at value
  rw [evaluate, evaluate, evaluateWith, evaluateWith, ← h.stored a .refl]
  cases stored : s.get a with
  | none => rfl
  | some c =>
      cases c with
      | literal v => rfl
      | error code message => rfl
      | formula source tree =>
          rw [stored] at value
          exact congrArg Outcome.ofResult value

/-- Without circles, what holds of a cell as soon as it holds of all cells that it reads holds of
every cell. The induction is on the order of a pass. -/
theorem Acyclic.induction {motive : Address → Prop} (acyclic : s.Acyclic)
    (step : ∀ a, (∀ b, s.Reads a b → motive b) → motive a) (a : Address) : motive a := by
  have below : ∀ later earlier, ({} : Evaluator).passed s = later ++ earlier →
      ∀ a ∈ earlier, motive a := by
    intro later earlier split
    induction earlier generalizing later with
    | nil => simp
    | cons c earlier ih =>
        have settled := ih (later ++ [c]) (by simp [split])
        intro a ha
        rcases List.mem_cons.mp ha with rfl | ha
        · exact step a fun b reads => settled b (Evaluator.mem_earlier acyclic split reads)
        · exact settled a ha
  by_cases formula : a ∈ s.formulas
  · exact below [] _ rfl a (Evaluator.mem_passed formula)
  · exact step a fun b reads => absurd reads.mem_formulas formula

theorem shown_congr {outcomes outcomes' : Outcomes} (stored : s.get a = t.get a)
    (same : outcomes[a]? = outcomes'[a]?) : s.shown outcomes a = t.shown outcomes' a := by
  rw [shown, shown, stored, same]

end Sheet

namespace Evaluator

open Sheet

variable {e e' : Evaluator} {s t : Sheet} {a : Address}

/-- On two sheets without circles, the passes settle the same for such a cell. -/
theorem outcome_eq_of_sameBelow (acyclic : s.Acyclic) (acyclic' : t.Acyclic)
    (options : e.options = e'.options) (h : s.SameBelow t a) :
    (e.evaluateSheet s).1[a]? = (e'.evaluateSheet t).1[a]? := by
  induction a using acyclic.induction with
  | step a ih =>
      by_cases formula : a ∈ s.formulas
      · rw [outcome_of_acyclic acyclic formula,
          outcome_of_acyclic acyclic' (h.mem_formulas.mp formula), ← options]
        congr 2
        apply h.follow_eq
        intro b reads
        have below : s.SameBelow t b := h.of_reads reads
        exact shown_congr (below.stored b .refl) (ih b reads below)
      · have formula' : a ∉ t.formulas := fun ha => formula (h.mem_formulas.mpr ha)
        rw [Std.ExtTreeMap.getElem?_eq_none (mt mem_evaluateSheet.mp formula),
          Std.ExtTreeMap.getElem?_eq_none (mt mem_evaluateSheet.mp formula')]

/-- A cell is not affected by what it does not read. If two sheets of the same extent store the same
at a cell and wherever references lead from it, then the cell has the same outcome on both when it
is evaluated alone. Without circles it also has the same outcome in passes over the two sheets. -/
theorem evaluate_eq_of_sameBelow (s t : Sheet) (a : Address) (h : s.SameBelow t a) :
    (∀ options, s.evaluate options a = t.evaluate options a) ∧
    (s.Acyclic → t.Acyclic → ∀ e e' : Evaluator, e.options = e'.options →
      (e.evaluateSheet s).1[a]? = (e'.evaluateSheet t).1[a]?) :=
  ⟨h.evaluate_eq, fun acyclic acyclic' _ _ options =>
    outcome_eq_of_sameBelow acyclic acyclic' options h⟩

end Evaluator

/-- The ladder with one more formula, which reads the last step and divides by zero. -/
def Sheet.annotated : Sheet :=
  { Sheet.ladder with cells := Sheet.ladder.cells.insert ⟨3, 1⟩ (.ofFormula "=A3/0") }

theorem Sheet.acyclic_annotated : Sheet.annotated.Acyclic :=
  acyclic_of_rank Address.row (by decide +kernel)

/-- References on the ladder lead up, away from the formula that is added. -/
theorem Sheet.sameBelow_annotated : Sheet.ladder.SameBelow Sheet.annotated ⟨2, 0⟩ where
  extent := rfl
  stored b path := by
    have up : ∀ a ∈ Sheet.ladder.formulas, ∀ b ∈ Sheet.ladder.readsOf a, b.row < a.row := by
      decide +kernel
    have above : b.row ≤ 2 := by
      induction path with
      | refl => exact Nat.le_refl _
      | tail _ reads ih =>
          have lower := up _ reads.mem_formulas _ reads
          omega
    have apart : ¬ compare (⟨3, 1⟩ : Address) b = .eq := by
      intro same
      rw [← Std.LawfulEqOrd.eq_of_compare same] at above
      exact absurd above (by decide)
    rw [annotated, get, get, Std.ExtTreeMap.getElem?_insert, if_neg apart]

theorem Evaluator.evaluate_eq_of_sameBelow_annotated :
    Sheet.ladder.SameBelow Sheet.annotated ⟨2, 0⟩ ∧ Sheet.ladder.Acyclic ∧
    Sheet.annotated.Acyclic ∧
    Sheet.ladder.evaluate {} ⟨2, 0⟩ = Sheet.annotated.evaluate {} ⟨2, 0⟩ ∧
    (({} : Evaluator).evaluateSheet Sheet.ladder).1[(⟨2, 0⟩ : Address)]? =
      (({} : Evaluator).evaluateSheet Sheet.annotated).1[(⟨2, 0⟩ : Address)]? := by
  obtain ⟨alone, passes⟩ := evaluate_eq_of_sameBelow Sheet.ladder Sheet.annotated ⟨2, 0⟩
    Sheet.sameBelow_annotated
  exact ⟨Sheet.sameBelow_annotated, Sheet.ladder_acyclic, Sheet.acyclic_annotated, alone {},
    passes Sheet.ladder_acyclic Sheet.acyclic_annotated {} {} rfl⟩

end Spreadsheet
