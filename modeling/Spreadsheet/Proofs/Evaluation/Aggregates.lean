import Spreadsheet.Evaluation.Cell
import Spreadsheet.Proofs.Evaluation.Alike

/-!
# Aggregates of ranges

An aggregate takes no notice of where its arguments begin and end, and none of empty values. So it
makes no difference whether a range is an argument of it or each cell of the range is one, although
only the part of the range inside the extent is read: cells outside read as empty. Cells are read
row by row either way, so the first failure is the same one, too.
-/

namespace Spreadsheet

/-! ### Ranges read cell by cell -/

/-- What reads as empty may be left out of a list, up to empty values. -/
theorem mapM_filter_filled {α : Type} {read : α → Except Failure Value} {keep : α → Bool}
    {as : List α} (dropped : ∀ a ∈ as, keep a = false → read a = .ok .empty) :
    ((as.filter keep).mapM read).map filled = (as.mapM read).map filled := by
  induction as with
  | nil => rfl
  | cons a as ih =>
      have rest := ih fun b hb => dropped b (List.mem_cons_of_mem a hb)
      cases kept : keep a with
      | false =>
          rw [List.filter_cons_of_neg (by simp [kept]), rest, List.mapM_cons,
            dropped a List.mem_cons_self kept]
          cases as.mapM read <;> rfl
      | true =>
          rw [List.filter_cons_of_pos kept, List.mapM_cons, List.mapM_cons]
          cases read a with
          | error f => rfl
          | ok v =>
              have step (x : Except Failure (List Value)) :
                  (Except.ok v >>= fun v => x >>= fun vs => pure (v :: vs)).map filled =
                    (x.map filled).map (filled [v] ++ ·) := by
                cases x with
                | error f => rfl
                | ok vs => exact congrArg Except.ok (filled_append [v] vs)
              rw [step, step, rest]

namespace Surroundings

variable {s : Surroundings} {r : Range}

theorem inside_eq_mapM (s : Surroundings) (covered : Option Range) :
    s.inside covered = ((covered.map Range.cells).getD []).mapM s.cell := by
  cases covered <;> rfl

/-- Reading a range is reading its cells one by one, up to empty values. -/
theorem range_filled (inside : s.strict → ∀ a, r.contains a → s.extent.contains a) :
    (s.range r).map filled = (r.cells.mapM s.cell).map filled := by
  unfold range
  dsimp only
  by_cases strict : s.strict
  · have whole : r.intersection s.extent = some r := Range.intersection_eq_self (inside strict)
    rw [whole, if_neg (by simp)]
    rfl
  · rw [if_neg (by simp [strict]), inside_eq_mapM, Range.cells_intersection]
    refine mapM_filter_filled fun a _ outside => ?_
    simp [cell, outside, strict]

end Surroundings

/-! ### Arguments one behind the other -/

/-- An aggregate takes any number of arguments. -/
theorem Function.resolve_aggregate {name : String} {f : Function}
    (named : Function.ofName? name = some f) (aggregate : f ≠ .conditional) (count : Nat) :
    Function.resolve name count = .ok f := by
  unfold resolve
  rw [named]
  cases f with
  | conditional => exact absurd rfl aggregate
  | _ => rfl

namespace Expr

variable {s : Surroundings} {name : String} {f : Function} {first second : Reference}

/-- The values of arguments, one argument behind the other and without the empty ones. -/
def filledValues (s : Surroundings) (args : List Expr) : Except Failure (List Value) :=
  (evalAll s args).map fun operands => filled (Aggregate.values operands)

theorem evalAll_eq_mapM (s : Surroundings) (args : List Expr) :
    evalAll s args = args.mapM (eval s) := by
  induction args with
  | nil => rfl
  | cons e es ih => rw [evalAll, List.mapM_cons, ih]

theorem filledValues_append (args args' : List Expr) :
    filledValues s (args ++ args') = do
      let vs ← filledValues s args
      let ws ← filledValues s args'
      return vs ++ ws := by
  simp only [filledValues, evalAll_eq_mapM, List.mapM_append]
  cases args.mapM (eval s) with
  | error f => rfl
  | ok operands =>
      cases args'.mapM (eval s) with
      | error f => rfl
      | ok operands' =>
          refine congrArg Except.ok ?_
          simp only [Aggregate.values, List.flatMap_append, filled_append]

theorem filledValues_range (s : Surroundings) (first second : Reference) :
    filledValues s [.range first second] = (s.range (first.rectangle second)).map filled := by
  simp only [filledValues, evalAll, eval]
  cases s.range (first.rectangle second) with
  | error f => rfl
  | ok vs => simp [Aggregate.values, Except.map, bind, Except.bind, pure, Except.pure]

theorem filledValues_cells (s : Surroundings) (cells : List Reference) :
    filledValues s (cells.map .cell) = ((cells.map Reference.address).mapM s.cell).map filled := by
  induction cells with
  | nil => rfl
  | cons r rs ih =>
      rw [List.map_cons, List.map_cons, ← List.singleton_append, filledValues_append, ih,
        List.mapM_cons]
      simp only [filledValues, evalAll, eval]
      cases s.cell r.address with
      | error f => rfl
      | ok v =>
          cases (rs.map Reference.address).mapM s.cell with
          | error f => rfl
          | ok vs => exact congrArg Except.ok (filled_append [v] vs).symm

/-- All that an aggregate takes from its arguments is their values, without the empty ones. -/
theorem eval_aggregate (named : Function.ofName? name = some f) (aggregate : f ≠ .conditional)
    (args : List Expr) : (call name args).eval s =
      filledValues s args >>= fun vs => f.applyAggregate [.many vs] := by
  simp only [eval, Function.resolve_aggregate named aggregate]
  show (if f = .conditional then _ else _) = _
  rw [if_neg aggregate, filledValues]
  cases evalAll s args with
  | error g => rfl
  | ok operands =>
      show f.applyAggregate operands = f.applyAggregate [.many _]
      rw [Function.applyAggregate, Function.applyAggregate, f.aggregate_eq_of_sameFilled]
      simp [SameFilled, filled, Aggregate.values]

/-- A range as an argument of an aggregate may be replaced by its cells, row by row, each of them an
argument of its own: the result is the same value or the same failure. If references outside the
extent fail, this is said of ranges inside the extent. -/
theorem eval_aggregate_range (s : Surroundings) (name : String) (f : Function)
    (named : Function.ofName? name = some f) (aggregate : f ≠ .conditional)
    (before after : List Expr) (first second : Reference) (cells : List Reference)
    (listed : cells.map Reference.address = (first.rectangle second).cells)
    (inside : s.strict → ∀ a, (first.rectangle second).contains a → s.extent.contains a) :
    (call name (before ++ .range first second :: after)).eval s =
      (call name (before ++ (cells.map .cell ++ after))).eval s := by
  have same : filledValues s [.range first second] = filledValues s (cells.map .cell) :=
    calc filledValues s [.range first second]
      _ = (s.range (first.rectangle second)).map filled := filledValues_range s first second
      _ = ((first.rectangle second).cells.mapM s.cell).map filled := Surroundings.range_filled inside
      _ = filledValues s (cells.map .cell) := by rw [filledValues_cells, listed]
  rw [eval_aggregate named aggregate, eval_aggregate named aggregate, ← List.singleton_append,
    filledValues_append, filledValues_append, filledValues_append, filledValues_append, same]

end Expr

/-- A sheet of two rows and two columns with a number, a text and a formula. -/
def Sheet.patch : Sheet :=
  { Sheet.blank "patch" "Patch" 2 2 with
    cells := (((∅ : AddressMap Cell).insert ⟨0, 0⟩ (.literal (.number 4))).insert ⟨0, 1⟩
      (.literal (.text "x"))).insert ⟨1, 1⟩ (.ofFormula "=A1/2") }

/-- The first three cells of the first three rows, each with a fixed row. -/
def Reference.square : List Reference :=
  (Range.spanning ⟨0, 0⟩ ⟨2, 2⟩).cells.map fun a => { address := a, rowFixed := true }

/-- A range that hangs over the extent on two sides, with its ends written from the bottom left to
the top right. -/
def Expr.overhanging : Expr :=
  .range ⟨⟨2, 0⟩, false, false⟩ ⟨⟨0, 2⟩, true, false⟩

theorem Expr.eval_aggregate_range_overhanging :
    let surroundings := Sheet.patch.surroundings ⟨false⟩ ∅ ⟨3, 0⟩
    Function.ofName? "Sum" = some .sum ∧ surroundings.strict = false ∧
      (call "Sum" [.number 1, Expr.overhanging, .text "x"]).eval surroundings =
        .ok (.single (.number 7)) ∧
      (call "Sum" (.number 1 :: (Reference.square.map .cell ++ [.text "x"]))).eval surroundings =
        .ok (.single (.number 7)) := by
  intro surroundings
  have named : Function.ofName? "Sum" = some .sum := by decide +kernel
  have value : (call "Sum" [.number 1, Expr.overhanging, .text "x"]).eval surroundings =
      .ok (.single (.number 7)) := by decide +kernel
  refine ⟨named, rfl, value, ?_⟩
  rw [← value]
  exact (eval_aggregate_range surroundings "Sum" .sum named (by decide) [.number 1] [.text "x"] _ _
    Reference.square (by decide) (fun strict => nomatch strict)).symm

end Spreadsheet
