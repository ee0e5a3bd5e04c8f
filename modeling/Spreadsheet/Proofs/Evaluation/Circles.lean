import Spreadsheet.Proofs.Evaluation.Origin
import Spreadsheet.Proofs.Evaluation.Solution

/-!
# Reported circles are real

The cells on the chain of a reader form a path in the graph of references that leads to the cell
being read. So the cell at which a chain closes lies on a cycle of the graph, and whoever fails
because of it leads there: a formula fails to read a cell only if it mentions that cell, whether the
failure comes from following the cell or from an outcome settled before. A cell that two formulas
read, or one formula reads twice, is never taken for a circle.
-/

namespace Spreadsheet

/-- A failure with the code of a circle says that a cell could not be read. -/
theorem Failure.ofReading_of_cycle {f : Failure} (code : f.code = .cycle) : f.OfReading := by
  cases f with
  | circular a => trivial
  | referenced a code message => trivial
  | unparsable | divisionByZero | invalidReference | invalidValue | unknownFunction
  | argumentCount => cases code

namespace Sheet

variable {s : Sheet} {options : Options} {settled : Outcomes} {a b : Address} {f : Failure}

/-- Whether references lead from a cell to one on a circle. -/
def LeadsToCircle (s : Sheet) (a : Address) : Prop :=
  ∃ b, Relation.ReflTransGen s.Reads a b ∧ Relation.TransGen s.Reads b b

theorem Reads.leadsToCircle (reads : s.Reads a b) (h : s.LeadsToCircle b) : s.LeadsToCircle a := by
  obtain ⟨c, path, circle⟩ := h
  exact ⟨c, path.head reads, circle⟩

/-- Whether a sheet stores no error with the code of a circle. -/
def StoresNoCircle (s : Sheet) : Prop :=
  ∀ a message, s.get a ≠ some (.error .cycle message)

/-- If following a cell gives a circular failure, then that is the failure of a cell that it
mentions. -/
theorem StoresNoCircle.follow (stores : s.StoresNoCircle) {read : Address → Except Failure Value}
    (failed : s.follow options read a = .error f) (code : f.code = .cycle) :
    ∃ b, s.Reads a b ∧ read b = .error f := by
  rw [Sheet.follow] at failed
  split at failed
  · cases failed
  · cases failed
  · next stored =>
      cases failed
      cases code
      exact absurd stored (stores a _)
  · next source tree stored =>
      obtain ⟨b, mentioned, unread⟩ :=
        Expr.value_failure failed (Failure.ofReading_of_cycle code)
      exact ⟨b, (mem_readsOf stored).mpr mentioned, unread⟩

/-- Whether all circular failures among settled outcomes are those of cells that lead to a
circle. -/
def Truthful (s : Sheet) (settled : Outcomes) : Prop :=
  ∀ (b : Address) (outcome : Outcome), settled[b]? = some outcome →
    outcome.code? = some .cycle → s.LeadsToCircle b

theorem truthful_empty : s.Truthful ∅ := by
  intro b outcome found
  simp at found

/-- A circular failure that is read off a settled outcome is that of its cell. -/
theorem Truthful.of_settled (truthful : s.Truthful settled) {outcome : Outcome}
    (found : settled[a]? = some outcome) (failed : outcome.read a = .error f)
    (code : f.code = .cycle) : s.LeadsToCircle a := by
  apply truthful a outcome found
  cases outcome with
  | value v => cases failed
  | error shown message =>
      cases failed
      exact congrArg some code

/-- A reader whose chain leads to a cell takes that cell for circular only if it leads to a
circle. -/
theorem Truthful.of_read (truthful : s.Truthful settled) (stores : s.StoresNoCircle)
    (room : Nat) {chain : List Address} (path : ∀ c ∈ chain, Relation.TransGen s.Reads c a)
    (failed : s.read options settled room chain a = .error f) (code : f.code = .cycle) :
    s.LeadsToCircle a := by
  revert path failed
  refine read_induction (motive := fun chain a x =>
    (∀ c ∈ chain, Relation.TransGen s.Reads c a) → x = .error f → s.LeadsToCircle a)
    ?_ ?_ ?_ ?_ room chain a
  · intro chain a outcome found _ failed
    exact truthful.of_settled found failed code
  · intro chain a met path _
    exact ⟨a, .refl, path a met⟩
  · intro chain a _ failed
    cases failed
    cases code
  · intro chain a read ih path failed
    obtain ⟨b, reads, unread⟩ := stores.follow failed code
    -- The chain grows by the cell that reads, and each of its cells leads on to the next.
    have longer : ∀ c ∈ a :: chain, Relation.TransGen s.Reads c b := by
      intro c hc
      rcases List.mem_cons.mp hc with rfl | hc
      · exact .single reads
      · exact (path c hc).tail reads
    exact reads.leadsToCircle (ih b longer unread)

/-- A cell that is evaluated shows a circle only if it leads to one. -/
theorem Truthful.of_evaluateWith (truthful : s.Truthful settled) (stores : s.StoresNoCircle)
    (shows : (s.evaluateWith options settled a).code? = some .cycle) : s.LeadsToCircle a := by
  rw [code_evaluateWith] at shows
  obtain ⟨f, failed, code⟩ := Outcome.code_ofResult.mp shows
  obtain ⟨b, reads, unread⟩ := stores.follow failed code
  have path : ∀ c ∈ [a], Relation.TransGen s.Reads c b := by
    intro c hc
    rw [List.mem_singleton.mp hc]
    exact .single reads
  exact reads.leadsToCircle (truthful.of_read stores _ path unread code)

end Sheet

namespace Evaluator

open Sheet

variable {e : Evaluator} {s : Sheet} {options : Options} {a : Address}

/-- A pass settles truthful outcomes. -/
theorem truthful_settleAll (stores : s.StoresNoCircle) (cells : List Address) :
    s.Truthful (settleAll s options cells) := by
  induction cells with
  | nil => exact truthful_empty
  | cons c cells ih =>
      intro b outcome found code
      rw [settleAll, List.foldr_cons, getElem?_settle, ← settleAll] at found
      split at found
      · next here =>
          cases found
          rw [← here.1]
          exact ih.of_evaluateWith stores code
      · exact ih b outcome found code

/-- Whether the evaluation of a cell, alone or in a pass over the whole sheet, ends in an error with
the code of a circle. -/
def ReportsCircle (e : Evaluator) (s : Sheet) (a : Address) : Prop :=
  (s.evaluate e.options a).code? = some .cycle ∨
    ∃ outcome, (e.evaluateSheet s).1[a]? = some outcome ∧ outcome.code? = some .cycle

theorem ReportsCircle.leadsToCircle (h : e.ReportsCircle s a) (stores : s.StoresNoCircle) :
    s.LeadsToCircle a := by
  rcases h with alone | ⟨outcome, found, code⟩
  · exact truthful_empty.of_evaluateWith stores alone
  · rw [evaluateSheet_outcomes] at found
    exact truthful_settleAll stores (e.passed s) a outcome found code

/-- On a sheet of any size that stores no such error itself, a cell ends in an error with the code
of a circle only if the graph of the sheet has a path from it to a cell on a cycle. Without cycles
no cell does, however often it is read and in whatever ways. -/
theorem reportsCircle_sound (e : Evaluator) (s : Sheet) (stores : s.StoresNoCircle) :
    (∀ a, e.ReportsCircle s a → ∃ b, (e.evaluateSheet s).2.graph.Reaches a b ∧
      Relation.TransGen (e.evaluateSheet s).2.graph.Edge b b) ∧
    ((∀ b, ¬ Relation.TransGen (e.evaluateSheet s).2.graph.Edge b b) →
      ∀ a, ¬ e.ReportsCircle s a) := by
  have edges : (e.evaluateSheet s).2.graph.Edge = s.Reads := edge_eq_reads
  rw [Graph.Reaches, edges]
  constructor
  · intro a reports
    exact reports.leadsToCircle stores
  · intro acyclic a reports
    obtain ⟨b, -, circle⟩ := reports.leadsToCircle stores
    exact acyclic b circle

end Evaluator

/-- A sheet with a circle of two cells and a sum over both of them. -/
def Sheet.eddy : Sheet :=
  { Sheet.blank "eddy" "Eddy" 1 3 with
    cells := (((∅ : AddressMap Cell).insert ⟨0, 0⟩ (.ofFormula "=B1")).insert ⟨0, 1⟩
      (.ofFormula "=A1+1")).insert ⟨0, 2⟩ (.ofFormula "=SUM(A1:B1)") }

/-- A sheet none of whose entries is an error stores no circle. -/
theorem Sheet.storesNoCircle_of_entries {s : Sheet}
    (h : ∀ entry ∈ s.entries, entry.2.isError = false) : s.StoresNoCircle := by
  intro a message stored
  exact Bool.noConfusion (h _ (mem_entries.mpr stored))

/-- The sum is outside the circle and leads there. On the ladder, where one formula reads another
one and the cell that it reads, there is no circle. -/
theorem Evaluator.reportsCircle_sound_eddy :
    Sheet.eddy.StoresNoCircle ∧ ({} : Evaluator).ReportsCircle Sheet.eddy ⟨0, 2⟩ ∧
    (∃ b, (({} : Evaluator).evaluateSheet Sheet.eddy).2.graph.Reaches ⟨0, 2⟩ b ∧
      Relation.TransGen (({} : Evaluator).evaluateSheet Sheet.eddy).2.graph.Edge b b) ∧
    Sheet.ladder.StoresNoCircle ∧
    (∀ b, ¬ Relation.TransGen (({} : Evaluator).evaluateSheet Sheet.ladder).2.graph.Edge b b) ∧
    ∀ a, ¬ ({} : Evaluator).ReportsCircle Sheet.ladder a := by
  have stores : Sheet.eddy.StoresNoCircle := Sheet.storesNoCircle_of_entries (by decide +kernel)
  have reports : ({} : Evaluator).ReportsCircle Sheet.eddy ⟨0, 2⟩ := .inl (by decide +kernel)
  have stores' : Sheet.ladder.StoresNoCircle := Sheet.storesNoCircle_of_entries (by decide +kernel)
  have edges : (({} : Evaluator).evaluateSheet Sheet.ladder).2.graph.Edge = Sheet.ladder.Reads :=
    edge_eq_reads
  have acyclic : ∀ b,
      ¬ Relation.TransGen (({} : Evaluator).evaluateSheet Sheet.ladder).2.graph.Edge b b := by
    rw [edges]
    exact Sheet.ladder_acyclic
  exact ⟨stores, reports, (reportsCircle_sound {} Sheet.eddy stores).1 ⟨0, 2⟩ reports, stores',
    acyclic, (reportsCircle_sound {} Sheet.ladder stores').2 acyclic⟩

end Spreadsheet
