import Spreadsheet.Proofs.Evaluation.Origin
import Spreadsheet.Proofs.Evaluation.Pass
import Spreadsheet.Proofs.Evaluation.Reader
import Spreadsheet.Proofs.Formula.Mentions

/-!
# A pass solves the equations of a sheet

The formulas of a sheet are equations for its outcomes: each outcome is what the formula
evaluates to when the cells that it mentions show their outcomes. Without circles a pass finds
outcomes that satisfy all of them, because every formula is evaluated after those that it
mentions. No reference is followed on the way, so chains may be of any length.
-/

namespace Spreadsheet

namespace Sheet

/-- What a formula gets that reads a cell inside the extent, when the formulas of the sheet have
these outcomes. -/
def shown (s : Sheet) (outcomes : Outcomes) (a : Address) : Except Failure Value :=
  match s.get a with
  | none => .ok .empty
  | some (.literal v) => .ok v
  | some (.error code message) => .error (.referenced a code message)
  | some (.formula _ _) => ((outcomes[a]?).map (Outcome.read a)).getD (.ok .empty)

/-- What the formulas of a sheet are evaluated against, when they have these outcomes. References
outside the extent are treated as the options say. -/
def solved (s : Sheet) (options : Options) (outcomes : Outcomes) : Surroundings where
  extent := s.extent
  strict := options.strict
  read := s.shown outcomes

/-- Whether outcomes satisfy the equations of a sheet. -/
structure Solves (s : Sheet) (options : Options) (outcomes : Outcomes) : Prop where
  /-- The outcomes are those of the formulas of the sheet. -/
  domain : ∀ a, a ∈ outcomes ↔ a ∈ s.formulas
  /-- Each of them is what its formula evaluates to. -/
  equation : ∀ a source tree, s.get a = some (.formula source tree) →
    outcomes[a]? = some (.ofResult (tree.value (s.solved options outcomes)))
  /-- None of them fails because a chain of references is too long. -/
  shallow : ∀ a source tree, s.get a = some (.formula source tree) →
    ∀ limit, tree.value (s.solved options outcomes) ≠ .error (.invalidValue (.tooDeep limit))

/-- Whether a formula mentions a cell inside the extent. -/
def Reads (s : Sheet) (a b : Address) : Prop :=
  b ∈ s.readsOf a

/-- Whether no chain of references leads back to where it began. -/
def Acyclic (s : Sheet) : Prop :=
  ∀ a, ¬ Relation.TransGen s.Reads a a

/-- Only formulas read. -/
theorem Reads.mem_formulas {s : Sheet} {a b : Address} (reads : s.Reads a b) : a ∈ s.formulas := by
  rw [mem_formulas_iff_treeAt]
  unfold Reads readsOf at reads
  split at reads
  · next tree stored => simp [stored]
  · cases reads

/-- A formula reads the addresses inside the extent that its tree mentions. -/
theorem reads_iff {s : Sheet} {a b : Address} : s.Reads a b ↔
    ∃ source tree, s.get a = some (.formula source tree) ∧ b ∈ tree.readsWithin s.extent := by
  rw [Reads, readsOf]
  constructor
  · intro reads
    split at reads
    · next tree found =>
        obtain ⟨source, stored⟩ := treeAt_eq_some.mp found
        exact ⟨source, tree, stored, reads⟩
    · cases reads
  · rintro ⟨source, tree, stored, reads⟩
    rw [treeAt_eq_some.mpr ⟨source, stored⟩]
    exact reads

/-- References that always lead to a cell of lower rank cannot lead back. -/
theorem acyclic_of_rank {s : Sheet} (rank : Address → Nat)
    (lower : ∀ a ∈ s.formulas, ∀ b ∈ s.readsOf a, rank b < rank a) : s.Acyclic := by
  have step : ∀ a b, s.Reads a b → rank b < rank a :=
    fun a b reads => lower a reads.mem_formulas b reads
  have path : ∀ a b, Relation.TransGen s.Reads a b → rank b < rank a := by
    intro a b reads
    induction reads with
    | single reads => exact step _ _ reads
    | tail _ reads ih => exact Nat.lt_trans (step _ _ reads) ih
  exact fun a circle => Nat.lt_irrefl _ (path a a circle)

theorem shown_ne_tooDeep {s : Sheet} {outcomes : Outcomes} {a : Address} (limit : Nat) :
    s.shown outcomes a ≠ .error (.invalidValue (.tooDeep limit)) := by
  unfold shown
  cases s.get a with
  | none => simp
  | some c =>
      cases c with
      | literal v => simp
      | error code message => simp
      | formula source tree =>
          cases outcomes[a]? with
          | none => simp
          | some outcome => cases outcome <;> simp [Outcome.read]

end Sheet

namespace Evaluator

variable {e : Evaluator} {s : Sheet} {a b : Address}

/-- The graph of a pass has the edges that the formulas of the sheet say. -/
theorem edge_eq_reads : (e.rebuild s).graph.Edge = s.Reads := by
  funext a b
  exact propext edge_rebuild

theorem reaches_iff : (e.rebuild s).graph.Reaches = Relation.ReflTransGen s.Reads := by
  rw [Graph.Reaches, edge_eq_reads]

/-- Without circles, a cell that a formula reads stands in front of it in a pass. -/
theorem mem_earlier (acyclic : s.Acyclic) {later earlier : List Address}
    (split : e.passed s = later ++ a :: earlier) (reads : s.Reads a b) : b ∈ earlier := by
  have behind : (e.rebuild s).graph.PrecedentsBehind (later ++ a :: earlier) :=
    split ▸ Graph.precedentsBehind_order s.formulas
  rcases behind.of_append.1 b (edge_rebuild.mpr reads) with earlier | back
  · exact earlier
  · rw [reaches_iff] at back
    exact absurd (Relation.TransGen.head' reads back) (acyclic a)

/-- When the formulas in front of a cell are settled, reading a cell that it mentions is reading
what that cell shows in the end. -/
theorem read_eq_shown (acyclic : s.Acyclic) {later earlier : List Address}
    (split : e.passed s = later ++ a :: earlier) (ha : a ∈ s.formulas) (reads : s.Reads a b)
    (room : Nat) : s.read e.options (settleAll s e.options earlier) (room + 1) [a] b =
      s.shown (e.evaluateSheet s).1 b := by
  have nodup : (later ++ a :: earlier).Nodup := split ▸ nodup_passed
  by_cases formula : b ∈ s.formulas
  · have inFront : b ∈ earlier := mem_earlier acyclic split reads
    obtain ⟨before, after, split'⟩ := List.append_of_mem inFront
    have front : (before ++ b :: after).Nodup :=
      split' ▸ (List.nodup_append.mp nodup).2.1.tail
    have settled : (settleAll s e.options (before ++ b :: after))[b]? =
        some (s.evaluateWith e.options (settleAll s e.options after) b) :=
      settleAll_formula front formula
    rw [← split'] at settled
    have final : (e.evaluateSheet s).1[b]? = (settleAll s e.options earlier)[b]? := by
      have suffix : (settleAll s e.options ([a] ++ earlier))[b]? =
          (settleAll s e.options earlier)[b]? :=
        settleAll_append (List.nodup_append.mp nodup).2.1 inFront
      rw [evaluateSheet_outcomes, split, settleAll_append nodup (List.mem_cons_of_mem a inFront)]
      exact suffix
    obtain ⟨source, tree, stored⟩ := Sheet.mem_formulas.mp formula
    rw [Sheet.read_of_settled settled, Sheet.shown, stored, final, settled]
    rfl
  · have distinct : b ∉ [a] := by
      rw [List.mem_singleton]
      rintro rfl
      exact formula ha
    rw [Sheet.read_succ (settleAll_of_not_formula formula) distinct]
    simp only [Sheet.follow, Sheet.shown]
    cases stored : s.get b with
    | none => rfl
    | some c =>
        cases c with
        | literal v => rfl
        | error code message => rfl
        | formula source tree =>
            exact absurd (Sheet.mem_formulas.mpr ⟨source, tree, stored⟩) formula

/-- On a sheet without circles, the outcome of a formula is what a reader gets that follows it and
reads what the other formulas show in the end. -/
theorem outcome_of_acyclic (acyclic : s.Acyclic) (ha : a ∈ s.formulas) :
    (e.evaluateSheet s).1[a]? =
      some (.ofResult (s.follow e.options (s.shown (e.evaluateSheet s).1) a)) := by
  obtain ⟨later, earlier, split⟩ := exists_split (e := e) ha
  obtain ⟨source, tree, stored⟩ := Sheet.mem_formulas.mp ha
  have reads : ∀ b ∈ tree.mentions (some s.extent),
      s.read e.options (settleAll s e.options earlier) (maxChain - 1) [a] b =
        s.shown (e.evaluateSheet s).1 b := fun b hb =>
    read_eq_shown acyclic split ha ((Sheet.mem_readsOf stored).mpr hb) _
  rw [outcome_of_split split ha, Sheet.evaluateWith, Sheet.follow, stored]
  exact congrArg (fun x => some (Outcome.ofResult x)) (Expr.value_congr tree reads)

/-- On a sheet without circles, of any size, a pass solves the equations of the sheet. -/
theorem evaluateSheet_solves (e : Evaluator) (s : Sheet) (acyclic : s.Acyclic) :
    s.Solves e.options (e.evaluateSheet s).1 where
  domain a := mem_evaluateSheet
  equation a source tree stored := by
    have ha : a ∈ s.formulas := Sheet.mem_formulas.mpr ⟨source, tree, stored⟩
    obtain ⟨later, earlier, split⟩ := exists_split (e := e) ha
    have reads : ∀ b ∈ tree.mentions (some s.extent),
        s.read e.options (settleAll s e.options earlier) (maxChain - 1) [a] b =
          s.shown (e.evaluateSheet s).1 b := fun b hb =>
      read_eq_shown acyclic split ha ((Sheet.mem_readsOf stored).mpr hb) _
    have value : (e.evaluateSheet s).1[a]? =
        some (s.evaluateWith e.options (settleAll s e.options earlier) a) := by
      rw [evaluateSheet_outcomes, split, settleAll_formula (split ▸ nodup_passed) ha]
    rw [value, Sheet.evaluateWith, stored]
    exact congrArg (fun x => some (Outcome.ofResult x)) (Expr.value_congr tree reads)
  shallow a source tree stored limit failed := by
    obtain ⟨b, -, unread⟩ := Expr.value_failure failed trivial
    exact Sheet.shown_ne_tooDeep limit unread

end Evaluator

/-- A sheet on which each formula reads the rows above it. One of them also reads empty cells of a
range and a cell outside the extent. -/
def Sheet.ladder : Sheet :=
  { Sheet.blank "ladder" "Ladder" 4 2 with
    cells := ((((∅ : AddressMap Cell).insert ⟨0, 0⟩ (.literal (.number 1))).insert ⟨1, 0⟩
      (.ofFormula "=A1+1")).insert ⟨2, 0⟩ (.ofFormula "=SUM(A1:B2)+C9")) }

theorem Sheet.ladder_acyclic : Sheet.ladder.Acyclic :=
  acyclic_of_rank Address.row (by decide +kernel)

theorem Evaluator.evaluateSheet_solves_ladder :
    Sheet.ladder.Acyclic ∧ Sheet.ladder.Solves {} (({} : Evaluator).evaluateSheet Sheet.ladder).1 :=
  ⟨Sheet.ladder_acyclic, evaluateSheet_solves {} Sheet.ladder Sheet.ladder_acyclic⟩

end Spreadsheet
