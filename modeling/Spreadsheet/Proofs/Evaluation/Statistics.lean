import Mathlib.Data.Set.Card
import Spreadsheet.Evaluation.Calculation
import Spreadsheet.Proofs.Evaluation.Pass
import Spreadsheet.Proofs.Sheet.Runs

/-!
# What a calculation counts

The numbers of a calculation are drawn from lists: the entries of the sheet and the outcomes of a
pass. Addresses do not repeat in either, so a number counts the addresses at which something can be
looked up, and since every formula has exactly one outcome and nothing else has any, the numbers of
formulas and of outcomes agree on every sheet, with circles or without.

The number of cells whose text is no formula is the exception. It counts all stored errors, and so
it is right exactly on sheets whose errors all have the code of such a text.
-/

namespace Spreadsheet

namespace AddressMap

variable {α : Type} {p : α → Bool}

/-- The values of a map are those of its entries. -/
theorem values_eq (m : AddressMap α) : m.values = m.toList.map Prod.snd := by
  obtain ⟨inner⟩ := m
  induction inner using Std.ExtDTreeMap.inductionOn with
  | _ t =>
      show t.inner.values = (Std.DTreeMap.Internal.Impl.Const.toList t.inner).map Prod.snd
      rw [Std.DTreeMap.Internal.Impl.values_eq_map_snd,
        Std.DTreeMap.Internal.Impl.Const.toList_eq_toListModel_map, List.map_map]
      rfl

/-- The addresses at which a value of some kind is found. -/
def places (m : AddressMap α) (p : α → Bool) : Set Address :=
  {a : Address | ∃ x, m[a]? = some x ∧ p x}

theorem places_eq (m : AddressMap α) (p : α → Bool) :
    m.places p = ((m.toList.filter fun entry => p entry.2).map Prod.fst).toFinset := by
  ext a
  simp [places, Std.ExtTreeMap.mem_toList_iff_getElem?_eq_some]

theorem finite_places (m : AddressMap α) (p : α → Bool) : (m.places p).Finite := by
  rw [places_eq]
  exact Finset.finite_toSet _

/-- The entries of some kind are as many as the addresses at which a value of this kind is found. -/
theorem countP_toList (m : AddressMap α) (p : α → Bool) :
    (m.toList.countP fun entry => p entry.2) = (m.places p).ncard := by
  have distinct : ((m.toList.filter fun entry => p entry.2).map Prod.fst).Nodup := by
    rw [List.nodup_iff_pairwise_ne, List.pairwise_map]
    refine (m.distinct_keys_toList.filter _).imp fun different same => different ?_
    rw [same, Std.ReflOrd.compare_self]
  rw [places_eq, Set.ncard_coe_finset, List.toFinset_card_of_nodup distinct, List.length_map,
    List.countP_eq_length_filter]

end AddressMap

/-! ### What there is to count -/

namespace Sheet

/-- The addresses at which a sheet holds a formula. -/
def formulaCells (s : Sheet) : Set Address :=
  {a | ∃ source tree, s.get a = some (.formula source tree)}

/-- The addresses at which a sheet stores an error. -/
def errorCells (s : Sheet) : Set Address :=
  {a | ∃ code message, s.get a = some (.error code message)}

/-- The addresses at which a sheet stores the error that a text is no formula. -/
def unparsableCells (s : Sheet) : Set Address :=
  {a | ∃ message, s.get a = some (.error .parse message)}

end Sheet

namespace Calculation

/-- The addresses that have an outcome. -/
def calculatedCells (c : Calculation) : Set Address :=
  {a | ∃ outcome, c.outcomes[a]? = some outcome}

/-- The addresses whose outcome is an error. -/
def failingCells (c : Calculation) : Set Address :=
  {a | ∃ code message, c.outcomes[a]? = some (.error code message)}

/-- The addresses whose outcome is the error of a circle. -/
def circularCells (c : Calculation) : Set Address :=
  {a | ∃ message, c.outcomes[a]? = some (.error .cycle message)}

end Calculation

/-! ### The numbers -/

/-- The codes among outcomes are as many as the addresses whose outcome is an error with such a
code. -/
theorem Outcomes.countP_codes (outcomes : Outcomes) (p : ErrorCode → Bool) :
    (outcomes.values.filterMap Outcome.code?).countP p =
      {a : Address | ∃ code message, outcomes[a]? = some (.error code message) ∧ p code}.ncard := by
  have places : outcomes.places (fun outcome => outcome.code?.any p) =
      {a : Address | ∃ code message, outcomes[a]? = some (.error code message) ∧ p code} := by
    ext a
    constructor
    · rintro ⟨outcome, found, kind⟩
      cases outcome with
      | value v => cases kind
      | error code message => exact ⟨code, message, found, kind⟩
    · rintro ⟨code, message, found, kind⟩
      exact ⟨_, found, kind⟩
  rw [← places, ← AddressMap.countP_toList, AddressMap.values_eq, List.filterMap_map,
    List.countP_filterMap]
  refine List.countP_congr fun entry _ => ?_
  cases h : entry.2.code? <;> simp [h]

namespace Sheet

variable {s : Sheet} {options : Options}

theorem formulaCells_eq : s.formulaCells = s.cells.places Cell.isFormula := by
  ext a
  constructor
  · rintro ⟨source, tree, stored⟩
    exact ⟨_, stored, rfl⟩
  · rintro ⟨c, stored, formula⟩
    cases c with
    | formula source tree => exact ⟨source, tree, stored⟩
    | literal v => cases formula
    | error code message => cases formula

theorem errorCells_eq : s.errorCells = s.cells.places Cell.isError := by
  ext a
  constructor
  · rintro ⟨code, message, stored⟩
    exact ⟨_, stored, rfl⟩
  · rintro ⟨c, stored, failed⟩
    cases c with
    | error code message => exact ⟨code, message, stored⟩
    | literal v => cases failed
    | formula source tree => cases failed

/-- Each formula has one outcome, and nothing else has any. -/
theorem calculatedCells_calculate : (s.calculate options).calculatedCells = s.formulaCells := by
  ext a
  have found : a ∈ (s.calculate options).outcomes ↔ a ∈ s.formulas := Evaluator.mem_evaluateSheet
  rw [Std.ExtTreeMap.mem_iff_isSome_getElem?, Option.isSome_iff_exists, mem_formulas] at found
  exact found

theorem formulas_calculate :
    (s.calculate options).statistics.formulas = s.formulaCells.ncard := by
  rw [formulaCells_eq, ← AddressMap.countP_toList, List.countP_eq_length_filter]
  exact List.length_map _

theorem calculated_calculate :
    (s.calculate options).statistics.calculated = s.formulaCells.ncard := by
  have every : (s.calculate options).calculatedCells =
      (s.calculate options).outcomes.places fun _ => true := by
    ext a
    simp [Calculation.calculatedCells, AddressMap.places]
  have same : (s.calculate options).calculatedCells = s.formulaCells := calculatedCells_calculate
  rw [← same, every, ← AddressMap.countP_toList, List.countP_true, Std.ExtTreeMap.length_toList]
  rfl

theorem errors_calculate : (s.calculate options).statistics.errors =
    (s.calculate options).failingCells.ncard := by
  have counted := Outcomes.countP_codes (s.calculate options).outcomes fun _ => true
  simp only [List.countP_true, and_true] at counted
  exact counted

theorem circular_calculate : (s.calculate options).statistics.circular =
    (s.calculate options).circularCells.ncard := by
  have counted := Outcomes.countP_codes (s.calculate options).outcomes (· == .cycle)
  simp only [beq_iff_eq, exists_and_right, exists_eq_right] at counted
  exact counted

theorem unparsable_calculate :
    (s.calculate options).statistics.unparsable = s.errorCells.ncard := by
  rw [errorCells_eq, ← AddressMap.countP_toList]
  rfl

/-- The stored errors are no more than those of texts exactly if they all are such errors. -/
theorem ncard_errorCells_eq_iff : s.errorCells.ncard = s.unparsableCells.ncard ↔
    ∀ a code message, s.get a = some (.error code message) → code = .parse := by
  have finite : s.errorCells.Finite := by
    rw [errorCells_eq]
    exact AddressMap.finite_places _ _
  have some : s.unparsableCells ⊆ s.errorCells := fun a ⟨message, stored⟩ => ⟨_, message, stored⟩
  constructor
  · intro same a code message stored
    have all := Set.eq_of_subset_of_ncard_le some same.le finite
    obtain ⟨message', stored'⟩ : a ∈ s.unparsableCells := all ▸ ⟨code, message, stored⟩
    rw [stored] at stored'
    cases stored'
    rfl
  · intro parse
    refine congrArg Set.ncard (Set.Subset.antisymm ?_ some)
    rintro a ⟨code, message, stored⟩
    cases parse a code message stored
    exact ⟨message, stored⟩

/-- The numbers of a calculation describe the sheet, whatever it stores and whether its references
form circles or not: so many cells hold formulas and as many have an outcome, so many of the
outcomes are errors, and so many of these have the code of a circle. The number of texts that are no
formulas is the number of all stored errors. It is that of the errors with the code of such a text
exactly if no error with another code is stored. -/
theorem calculate_statistics (s : Sheet) (options : Options) :
    let c := s.calculate options
    c.calculatedCells = s.formulaCells ∧
    c.statistics.formulas = s.formulaCells.ncard ∧
    c.statistics.calculated = s.formulaCells.ncard ∧
    c.statistics.errors = c.failingCells.ncard ∧
    c.statistics.circular = c.circularCells.ncard ∧
    c.statistics.unparsable = s.errorCells.ncard ∧
    (c.statistics.unparsable = s.unparsableCells.ncard ↔
      ∀ a code message, s.get a = some (.error code message) → code = .parse) := by
  intro c
  refine ⟨calculatedCells_calculate, formulas_calculate, calculated_calculate, errors_calculate,
    circular_calculate, unparsable_calculate, ?_⟩
  rw [unparsable_calculate]
  exact ncard_errorCells_eq_iff

/-- An error that is stored as the remains of a reference is counted as a text that is no formula. -/
theorem not_calculate_unparsable : ¬ ∀ (changes : List Operation) (options : Options),
    let s := (blank "s" "S" 1 1).after changes
    (s.calculate options).statistics.unparsable = s.unparsableCells.ncard := by
  intro counts
  have stored : ((blank "s" "S" 1 1).after [.store ⟨0, 0⟩ (.error .ref "gone")]).get ⟨0, 0⟩ =
      some (.error .ref "gone") := rfl
  have same := counts [.store ⟨0, 0⟩ (.error .ref "gone")] {}
  dsimp only at same
  rw [unparsable_calculate, ncard_errorCells_eq_iff] at same
  cases same _ _ _ stored

end Sheet

end Spreadsheet
