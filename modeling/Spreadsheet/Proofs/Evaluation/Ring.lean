import Mathlib.Data.Fintype.Card
import Spreadsheet.Proofs.Evaluation.Pass
import Spreadsheet.Proofs.Evaluation.Reader
import Spreadsheet.Proofs.Formula.Leaves
import Spreadsheet.Proofs.Sheet.FromText

/-!
# Rings of references

The formulas of a ring are references, each to the next cell of the ring and the last one to the
first. Whichever of them a pass meets first, it follows the ring from there, and two things may
stop it: it comes back to where it began, or the chain is full. Only the length of the ring
decides which of the two happens, so all cells of a ring fail with the same code, whatever else
the sheet holds and in whichever order the pass goes.
-/

namespace Spreadsheet

namespace Sheet

variable {s : Sheet} {options : Options} {settled : Outcomes} {n : Nat}
variable {ring : Fin n → Address}

/-- The next one of `n` places in a ring; behind the last one comes the first. -/
def around (i : Fin n) : Fin n :=
  ⟨(i.val + 1) % n, Nat.mod_lt _ i.pos⟩

/-- Distinct cells inside the extent, each of which holds a reference to the next one and
nothing else. The last one refers to the first. -/
structure Ring (s : Sheet) (ring : Fin n → Address) : Prop where
  distinct : Function.Injective ring
  inside : ∀ i, s.contains (ring i)
  refers : ∀ i, ∃ source r,
    s.get (ring i) = some (.formula source (.cell r)) ∧ r.address = ring (around i)

/-- The code of every cell of a ring of so many cells. -/
def ringCode (n : Nat) : ErrorCode :=
  if n ≤ maxChain then .cycle else .eval

theorem Ring.mem_formulas (h : s.Ring ring) (i : Fin n) : ring i ∈ s.formulas := by
  obtain ⟨source, r, stored, -⟩ := h.refers i
  exact Sheet.mem_formulas.mpr ⟨source, .cell r, stored⟩

/-- Following a cell of a ring is reading the next one. -/
theorem Ring.follow (h : s.Ring ring) (read : Address → Except Failure Value) (i : Fin n) :
    s.follow options read (ring i) = read (ring (around i)) := by
  obtain ⟨source, r, stored, next⟩ := h.refers i
  simp only [Sheet.follow, stored, Expr.value_cell, next, Surroundings.cell,
    extent_contains (h.inside (around i)), ↓reduceIte]

/-- A number of steps leads from a cell of a ring back to it only if it is no less than the length
of the ring. -/
theorem length_le_of_back {n steps : Nat} {k : Fin n} (positive : 0 < steps)
    (back : (k.val + steps) % n = k.val) : n ≤ steps := by
  have : k.val < n := k.isLt
  by_contra short
  by_cases wraps : k.val + steps < n
  · rw [Nat.mod_eq_of_lt wraps] at back
    omega
  · rw [Nat.mod_eq_sub_mod (by omega), Nat.mod_eq_of_lt (by omega)] at back
    omega

/-- What a reader gets that comes to a cell along its ring, when the cells of the ring that are
settled have the code of the ring. Every cell of the chain is so many steps behind, and the chain
becomes longer with each step, until it closes or is full. -/
theorem Ring.read (h : s.Ring ring)
    (known : ∀ j outcome, settled[ring j]? = some outcome → outcome.code? = some (ringCode n))
    (room : Nat) (chain : List (Fin n)) (k : Fin n) (nodup : chain.Nodup)
    (bounded : chain.length + room = maxChain)
    (behind : ∀ j ∈ chain, ∃ steps, 0 < steps ∧ steps ≤ chain.length ∧
      (j.val + steps) % n = k.val) :
    ∃ f, s.read options settled room (chain.map ring) (ring k) = .error f ∧
      f.code = ringCode n := by
  induction room using Nat.strongRecOn generalizing chain k with
  | ind room ih =>
  cases fresh : settled[ring k]? with
  | some outcome =>
      cases outcome with
      | value v => cases known k _ fresh
      | error code message =>
          exact ⟨_, read_of_settled fresh _ _, Option.some.inj (known k _ fresh)⟩
  | none =>
      by_cases closed : k ∈ chain
      · obtain ⟨steps, positive, few, back⟩ := behind k closed
        have around : n ≤ steps := length_le_of_back positive back
        refine ⟨_, read_of_mem_chain fresh (List.mem_map_of_mem closed) _, ?_⟩
        rw [ringCode, if_pos (by omega)]
        rfl
      · have apart : ring k ∉ chain.map ring := by
          rwa [List.mem_map_of_injective h.distinct]
        have longer : (k :: chain).Nodup := List.nodup_cons.mpr ⟨closed, nodup⟩
        cases room with
        | zero =>
            have cells : (k :: chain).length ≤ n := by
              simpa using longer.length_le_card
            refine ⟨_, read_of_full fresh apart, ?_⟩
            rw [List.length_cons] at cells
            rw [ringCode, if_neg (by omega)]
            rfl
        | succ room =>
            rw [read_succ fresh apart, h.follow, ← List.map_cons]
            refine ih room (Nat.lt_succ_self room) (k :: chain) (around k) longer ?_ ?_
            · rw [List.length_cons]
              omega
            · intro j hj
              rcases List.mem_cons.mp hj with rfl | hj
              · exact ⟨1, Nat.one_pos, by simp, rfl⟩
              · obtain ⟨steps, positive, few, back⟩ := behind j hj
                refine ⟨steps + 1, by omega, by simpa using few, ?_⟩
                rw [← Nat.add_assoc, ← Nat.mod_add_mod, back]
                rfl

end Sheet

namespace Evaluator

variable {e : Evaluator} {s : Sheet} {options : Options} {n : Nat}
variable {ring : Fin n → Address}

/-- Whatever cells a pass has come to, a cell of a ring that is settled has the code of the ring. -/
theorem code_settleAll_ring (h : s.Ring ring) {cells : List Address} (nodup : cells.Nodup)
    (i : Fin n) {outcome : Outcome} (settled : (settleAll s options cells)[ring i]? = some outcome) :
    outcome.code? = some (Sheet.ringCode n) := by
  induction cells generalizing i outcome with
  | nil => simp [settleAll] at settled
  | cons a cells ih =>
      obtain ⟨fresh, nodup'⟩ := List.nodup_cons.mp nodup
      rw [settleAll, List.foldr_cons, getElem?_settle] at settled
      split at settled
      · next here =>
          obtain ⟨rfl, formula⟩ := here
          cases settled
          have unsettled : (settleAll s options cells)[ring i]? = none :=
            settleAll_of_not_mem fresh
          obtain ⟨f, read, code⟩ :
              ∃ f, s.read options (settleAll s options cells) maxChain ([].map ring) (ring i) =
                .error f ∧ f.code = Sheet.ringCode n :=
            h.read (fun j _ => ih nodup' j) maxChain [] i List.nodup_nil (Nat.zero_add _) (by simp)
          rw [List.map_nil] at read
          rw [← settleAll, Sheet.evaluateWith_eq_read formula unsettled, read, ← code]
          rfl
      · exact ih nodup' i settled

/-- In a pass over the whole sheet every cell of a ring is circular if the ring fits into a chain.
The cells of a longer ring all fail because their chains are too long. -/
theorem evaluateSheet_ring (e : Evaluator) (s : Sheet) (n : Nat) (ring : Fin n → Address)
    (h : s.Ring ring) (i : Fin n) :
    ∃ message, (e.evaluateSheet s).1[ring i]? =
      some (.error (if n ≤ maxChain then .cycle else .eval) message) := by
  have present : ring i ∈ (e.evaluateSheet s).1 := mem_evaluateSheet.mpr (h.mem_formulas i)
  obtain ⟨outcome, settled⟩ :=
    Option.isSome_iff_exists.mp (Std.ExtTreeMap.mem_iff_isSome_getElem?.mp present)
  have code : outcome.code? = some (Sheet.ringCode n) := by
    rw [evaluateSheet_outcomes] at settled
    exact code_settleAll_ring h nodup_passed i settled
  cases outcome with
  | value v => cases code
  | error found message =>
      cases code
      exact ⟨message, settled⟩

end Evaluator

/-- The reference to the next of `n` rows of the first column. The first row follows the last. -/
def Reference.nextOf (n row : Nat) : Reference where
  address := ⟨(row + 1) % n, 0⟩

/-- A sheet of one column in which each cell refers to the next one. -/
def Sheet.circle (n : Nat) : Sheet :=
  { Sheet.blank "circle" "Circle" n 1 with
    cells := .ofList ((List.range n).map fun row =>
      (⟨row, 0⟩, .ofFormula ("=" ++ (Reference.nextOf n row).text))) compare }

theorem Sheet.ring_circle {n : Nat} (h : n ≤ maxRows) :
    (Sheet.circle n).Ring fun i : Fin n => ⟨i, 0⟩ where
  distinct := injective_firstColumn.comp Fin.val_injective
  inside i := by
    have := i.isLt
    simp [contains, circle, blank, maxCols]
    omega
  refers i := by
    have next : (i.val + 1) % n < n := Nat.mod_lt _ i.pos
    have onGrid : (Reference.nextOf n i).InGrid :=
      ⟨Nat.lt_of_lt_of_le next h, show 0 < maxCols by decide⟩
    refine ⟨"=" ++ (Reference.nextOf n i).text, .nextOf n i, ?_, ?_⟩
    · rw [← Cell.ofFormula_reference onGrid]
      exact getElem?_ofList_line injective_firstColumn
        (fun row => .ofFormula ("=" ++ (Reference.nextOf n row).text)) i.isLt
    · rfl

theorem Evaluator.evaluateSheet_ring_circle :
    ((Sheet.circle 3).Ring fun i : Fin 3 => ⟨i, 0⟩) ∧
      ∃ message, (({} : Evaluator).evaluateSheet (Sheet.circle 3)).1[(⟨2, 0⟩ : Address)]? =
        some (.error .cycle message) := by
  have ring := Sheet.ring_circle (n := 3) (by decide)
  exact ⟨ring, evaluateSheet_ring {} (Sheet.circle 3) 3 _ ring 2⟩

/-- The cells of a ring that is longer than a chain may be are not reported as circular. -/
theorem Evaluator.not_evaluateSheet_circle_cycle :
    ((Sheet.circle (maxChain + 1)).Ring fun i : Fin (maxChain + 1) => ⟨i, 0⟩) ∧
      ∀ (i : Fin (maxChain + 1)) (message : String),
        (({} : Evaluator).evaluateSheet (Sheet.circle (maxChain + 1))).1[(⟨i, 0⟩ : Address)]? ≠
          some (.error .cycle message) := by
  have ring := Sheet.ring_circle (n := maxChain + 1) (by decide)
  refine ⟨ring, fun i message circular => ?_⟩
  rw [evaluateSheet_outcomes] at circular
  cases code_settleAll_ring ring nodup_passed i circular

end Spreadsheet
