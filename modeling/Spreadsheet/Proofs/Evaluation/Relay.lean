import Spreadsheet.Proofs.Evaluation.Reader
import Spreadsheet.Proofs.Sheet.FromText

/-!
# Relays of references

A literal is handed on from cell to cell: the first formula of a relay is a reference to it, and
every other one is a reference to the formula before it. How far the literal gets in the evaluation
of a single cell depends on the number of references alone. A chain counts the cell that is
evaluated besides those that are read from it, so the last number of references that is followed
to the end is one less than the number of cells that a chain may hold.
-/

namespace Spreadsheet

namespace Sheet

variable {s : Sheet} {options : Options} {n : Nat} {cells : Fin (n + 1) → Address} {v : Value}

/-- Distinct cells inside the extent. The first one holds a literal, and each of the others holds
a reference to the one before it and nothing else. -/
structure Relay (s : Sheet) (cells : Fin (n + 1) → Address) (v : Value) : Prop where
  distinct : Function.Injective cells
  inside : ∀ i, s.contains (cells i)
  source : s.get (cells 0) = some (.literal v)
  refers : ∀ i : Fin n, ∃ source r,
    s.get (cells i.succ) = some (.formula source (.cell r)) ∧ r.address = cells i.castSucc

namespace Relay

theorem mem_formulas (h : s.Relay cells v) (i : Fin n) : cells i.succ ∈ s.formulas := by
  obtain ⟨source, r, stored, -⟩ := h.refers i
  exact Sheet.mem_formulas.mpr ⟨source, .cell r, stored⟩

theorem follow_zero (h : s.Relay cells v) (read : Address → Except Failure Value) :
    s.follow options read (cells 0) = .ok v := by
  simp only [follow, h.source]

/-- Following a reference of a relay is reading the cell before it. -/
theorem follow_succ (h : s.Relay cells v) (read : Address → Except Failure Value) (i : Fin n) :
    s.follow options read (cells i.succ) = read (cells i.castSucc) := by
  obtain ⟨source, r, stored, next⟩ := h.refers i
  simp only [follow, stored, Expr.value_cell, next, Surroundings.cell,
    extent_contains (h.inside i.castSucc), ↓reduceIte]

/-- What a reader gets that comes to a cell of a relay from cells behind it. Each step towards the
literal takes one place of the chain, and the literal takes one as well. -/
theorem read (h : s.Relay cells v) (i : Fin (n + 1)) (room : Nat) (chain : List (Fin (n + 1)))
    (behind : ∀ j ∈ chain, i < j) :
    s.read options ∅ room (chain.map cells) (cells i) =
      if i.val < room then .ok v else .error (.invalidValue (.tooDeep maxChain)) := by
  have fresh (a : Address) : (∅ : Outcomes)[a]? = none := Std.ExtTreeMap.getElem?_empty
  have apart (i : Fin (n + 1)) (chain : List (Fin (n + 1))) (behind : ∀ j ∈ chain, i < j) :
      cells i ∉ chain.map cells := by
    rw [List.mem_map_of_injective h.distinct]
    exact fun met => Fin.lt_irrefl i (behind i met)
  induction i using Fin.induction generalizing room chain with
  | zero =>
      cases room with
      | zero => simp [read_of_full (fresh _) (apart 0 chain behind)]
      | succ room => simp [read_succ (fresh _) (apart 0 chain behind), h.follow_zero]
  | succ i ih =>
      cases room with
      | zero => simp [read_of_full (fresh _) (apart i.succ chain behind)]
      | succ room =>
          have behind' : ∀ j ∈ i.succ :: chain, i.castSucc < j := by
            intro j hj
            rcases List.mem_cons.mp hj with rfl | hj
            · exact Fin.castSucc_lt_succ
            · exact Fin.lt_trans Fin.castSucc_lt_succ (behind j hj)
          rw [read_succ (fresh _) (apart i.succ chain behind), h.follow_succ, ← List.map_cons,
            ih room (i.succ :: chain) behind']
          simp

/-- A relay with at least one reference is evaluated by a reader with an empty chain. -/
theorem evaluate_succ (h : s.Relay cells v) (options : Options) (i : Fin n) :
    s.evaluate options (cells i.succ) = .ofResult
      (if i.val + 1 < maxChain then .ok v else .error (.invalidValue (.tooDeep maxChain))) := by
  rw [evaluate, evaluateWith_eq_read (h.mem_formulas i) Std.ExtTreeMap.getElem?_empty]
  exact congrArg _ (h.read i.succ maxChain [] (by simp))

end Relay

/-- The evaluation of a single cell follows a relay of references to its literal if the cells of the
relay, the literal among them, fit into a chain. Every longer relay fails, and the failure says that
there are more references than are followed. The shortest relay that fails has no more references
than its failure says are followed. -/
theorem evaluate_relay (s : Sheet) (options : Options) (n : Nat) (cells : Fin (n + 1) → Address)
    (v : Value) (h : s.Relay cells v) :
    s.evaluate options (cells (Fin.last n)) =
      if n < maxChain then .value v
      else .error .eval (Failure.invalidValue (.tooDeep maxChain)).message := by
  cases n with
  | zero =>
      have start : s.get (cells (Fin.last 0)) = some (.literal v) := h.source
      rw [if_pos (by decide), evaluate, evaluateWith, start]
  | succ n =>
      rw [← Fin.succ_last, h.evaluate_succ, Fin.val_last]
      split <;> rfl

end Sheet

/-- The reference to a row of the first column. -/
def Reference.ofRow (row : Nat) : Reference where
  address := ⟨row, 0⟩

/-- What is stored in a row of the first column: a number at the top, and below it in each row a
reference to the row above. -/
def Cell.relayed : Nat → Cell
  | 0 => .literal (.number 1)
  | row + 1 => .ofFormula ("=" ++ (Reference.ofRow row).text)

/-- A sheet of one column that hands a number on over so many references. -/
def Sheet.column (references : Nat) : Sheet :=
  { Sheet.blank "column" "Column" (references + 1) 1 with
    cells := .ofList ((List.range (references + 1)).map fun row => (⟨row, 0⟩, .relayed row)) compare }

theorem Sheet.relay_column {n : Nat} (h : n < maxRows) :
    (Sheet.column n).Relay (fun i : Fin (n + 1) => ⟨i, 0⟩) (.number 1) := by
  have stored (i : Fin (n + 1)) : (column n).get ⟨i, 0⟩ = some (.relayed i) :=
    getElem?_ofList_line injective_firstColumn Cell.relayed i.isLt
  refine ⟨injective_firstColumn.comp Fin.val_injective, fun i => ?_, stored 0, fun i => ?_⟩
  · have := i.isLt
    simp [contains, column, blank, maxCols]
    omega
  · have onGrid : (Reference.ofRow i).InGrid :=
      ⟨Nat.lt_trans i.isLt h, show 0 < maxCols by decide⟩
    exact ⟨_, _, (stored i.succ).trans (congrArg some (Cell.ofFormula_reference onGrid)), rfl⟩

/-- A relay that just fits. -/
theorem Sheet.evaluate_relay_column :
    ((Sheet.column 255).Relay (fun i : Fin 256 => ⟨i, 0⟩) (.number 1)) ∧
      (Sheet.column 255).evaluate {} ⟨255, 0⟩ = .value (.number 1) := by
  have relay := Sheet.relay_column (n := 255) (by decide)
  have followed := evaluate_relay (column 255) {} 255 _ (.number 1) relay
  rw [if_pos (by decide)] at followed
  exact ⟨relay, followed⟩

/-- A relay of as many references as are followed according to the failure that it meets. -/
theorem Sheet.not_evaluate_column :
    ((Sheet.column maxChain).Relay (fun i : Fin (maxChain + 1) => ⟨i, 0⟩) (.number 1)) ∧
      ∀ options : Options, (Sheet.column maxChain).evaluate options ⟨maxChain, 0⟩ ≠
        .value (.number 1) := by
  have relay := Sheet.relay_column (n := maxChain) (by decide)
  refine ⟨relay, fun options followed => ?_⟩
  have failed := relay.evaluate_succ options ⟨255, by decide⟩
  rw [if_neg (by decide)] at failed
  nomatch failed.symm.trans followed

end Spreadsheet
