import Spreadsheet.Evaluation.Cell
import Spreadsheet.Proofs.Sheet.Lookup

/-!
# The reader, case by case

A settled cell reads as its outcome, and a cell on the chain is circular. Any other cell is
followed: its formula is evaluated by a reader whose chain is one cell longer.
-/

namespace Spreadsheet

theorem Expr.value_cell (s : Surroundings) (r : Reference) :
    (cell r).value s = s.cell r.address := by
  unfold value
  simp only [eval]
  cases s.cell r.address <;> rfl

theorem Outcome.code_ofResult {x : Except Failure Value} {code : ErrorCode} :
    (ofResult x).code? = some code ↔ ∃ f, x = .error f ∧ f.code = code := by
  cases x <;> simp [ofResult, code?]

namespace Sheet

variable {s : Sheet} {options : Options} {settled : Outcomes} {a : Address}

/-- Reads a cell, given how the cells are read that its formula mentions. -/
def follow (s : Sheet) (options : Options) (read : Address → Except Failure Value)
    (a : Address) : Except Failure Value :=
  match s.get a with
  | none => .ok .empty
  | some (.literal v) => .ok v
  | some (.error code message) => .error (.referenced a code message)
  | some (.formula _ tree) => tree.value ⟨s.extent, options.strict, read⟩

theorem read_of_settled {outcome : Outcome} (h : settled[a]? = some outcome) (room : Nat)
    (chain : List Address) : s.read options settled room chain a = outcome.read a := by
  unfold read
  rw [h]

theorem read_of_mem_chain (h : settled[a]? = none) {chain : List Address} (ha : a ∈ chain)
    (room : Nat) : s.read options settled room chain a = .error (.circular a) := by
  unfold read
  simp [h, ha]

theorem read_of_full (h : settled[a]? = none) {chain : List Address} (ha : a ∉ chain) :
    s.read options settled 0 chain a = .error (.invalidValue (.tooDeep maxChain)) := by
  unfold read
  simp [h, ha]

theorem read_succ (h : settled[a]? = none) {chain : List Address} (ha : a ∉ chain)
    (room : Nat) : s.read options settled (room + 1) chain a =
      s.follow options (s.read options settled room (a :: chain)) a := by
  rw [read, h, follow]
  cases s.get a with
  | none => simp only [ha, ↓reduceIte]
  | some c => cases c <;> simp only [ha, ↓reduceIte]

/-- Induction along a reader. What holds of outcomes that are settled, of the failures at a closed
chain and at a full one, and of a cell that is followed if it holds of all that the cell may read,
holds of whatever is read. -/
theorem read_induction {motive : List Address → Address → Except Failure Value → Prop}
    (known : ∀ chain a outcome, settled[a]? = some outcome → motive chain a (outcome.read a))
    (closed : ∀ chain a, a ∈ chain → motive chain a (.error (.circular a)))
    (full : ∀ chain a, motive chain a (.error (.invalidValue (.tooDeep maxChain))))
    (followed : ∀ chain a read, (∀ b, motive (a :: chain) b (read b)) →
      motive chain a (s.follow options read a))
    (room : Nat) (chain : List Address) (a : Address) :
    motive chain a (s.read options settled room chain a) := by
  induction room using Nat.strongRecOn generalizing chain a with
  | ind room ih =>
  cases found : settled[a]? with
  | some outcome =>
      rw [read_of_settled found]
      exact known chain a outcome found
  | none =>
      by_cases met : a ∈ chain
      · rw [read_of_mem_chain found met]
        exact closed chain a met
      · cases room with
        | zero =>
            rw [read_of_full found met]
            exact full chain a
        | succ room =>
            rw [read_succ found met]
            exact followed chain a _ fun b => ih room (Nat.lt_succ_self room) (a :: chain) b

/-- The outcome of a formula that is not settled yet is what a reader gets that comes to it with
nothing on its chain. -/
theorem evaluateWith_eq_read (ha : a ∈ s.formulas) (h : settled[a]? = none) :
    s.evaluateWith options settled a =
      .ofResult (s.read options settled maxChain [] a) := by
  obtain ⟨source, tree, stored⟩ := mem_formulas.mp ha
  rw [show maxChain = (maxChain - 1) + 1 from rfl, read_succ h (by simp), evaluateWith, follow]
  simp only [stored]
  rfl

/-- The code that a cell shows is the code of what a reader gets that follows it. -/
theorem code_evaluateWith : (s.evaluateWith options settled a).code? =
    (Outcome.ofResult
      (s.follow options (s.read options settled (maxChain - 1) [a]) a)).code? := by
  rw [evaluateWith, follow]
  cases s.get a with
  | none => rfl
  | some c => cases c <;> rfl

/-- A cell shows the value that a reader gets that follows it. -/
theorem evaluateWith_eq_value_iff {v : Value} : s.evaluateWith options settled a = .value v ↔
    s.follow options (s.read options settled (maxChain - 1) [a]) a = .ok v := by
  rw [evaluateWith, follow]
  cases s.get a with
  | none => simp
  | some c =>
      cases c with
      | literal w => simp
      | error code message => simp
      | formula source tree =>
          rw [surroundings]
          dsimp only
          cases tree.value ⟨s.extent, options.strict, s.read options settled (maxChain - 1) [a]⟩ <;>
            simp [Outcome.ofResult]

end Sheet

end Spreadsheet
