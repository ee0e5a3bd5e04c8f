import Spreadsheet.Formula.Expr
import Spreadsheet.Formula.Function

/-!
# Evaluating a formula

A formula is evaluated against its surroundings: the extent of the sheet, whether references
outside it are failures, and a way to read the cells inside it. How a cell is read is not decided
here, so the same evaluator serves for a cell on its own and for a whole sheet.

Operands and arguments are evaluated from left to right and the first failure wins. Only the
branch of a condition that is chosen is evaluated.
-/

namespace Spreadsheet

/-- What a formula is evaluated against. -/
structure Surroundings where
  /-- The extent of the sheet. -/
  extent : Range
  /-- Whether references outside the extent fail; otherwise they read as empty. -/
  strict : Bool
  /-- Reads a cell inside the extent. -/
  read : Address → Except Failure Value

namespace Surroundings

/-- The value of the cell at an address. -/
def cell (s : Surroundings) (a : Address) : Except Failure Value :=
  if s.extent.contains a then s.read a
  else if s.strict then .error (.invalidReference (.outside a))
  else .ok .empty

/-- The values of the cells inside the extent that a range covers. -/
def inside (s : Surroundings) : Option Range → Except Failure (List Value)
  | some r => r.cells.mapM s.cell
  | none => .ok []

/-- The values of a range. What lies outside the extent is left out if it is no failure: it is
empty, and every function skips empty values. -/
def range (s : Surroundings) (r : Range) : Except Failure (List Value) :=
  let covered := r.intersection s.extent
  if s.strict ∧ covered ≠ some r then .error (.invalidReference (.reachesOutside r))
  else s.inside covered

end Surroundings

/-- The function of a call with so many arguments. -/
def Function.resolve (name : String) (count : Nat) : Except Failure Function :=
  match Function.ofName? name with
  | none => .error (.unknownFunction name)
  | some f => (f.signature.check count).map fun _ => f

/-- An aggregate applied to its arguments. -/
def Function.applyAggregate (f : Function) (args : List Operand) : Except Failure Operand :=
  Aggregate.finite (f.aggregate args)

namespace Expr

mutual

/-- The operand that a formula evaluates to. -/
def eval (s : Surroundings) : Expr → Except Failure Operand
  | .number n => .ok (.single (.number n))
  | .text t => .ok (.single (.text t))
  | .boolean b => .ok (.single (.boolean b))
  | .cell r => (s.cell r.address).map .single
  | .range first second => (s.range (Reference.rectangle first second)).map .many
  | .lost => .error (.invalidReference .lost)
  | .binary op left right => do
    let l ← (← left.eval s).value
    let r ← (← right.eval s).value
    return .single (← op.apply l r)
  | .negate operand => do
    let v ← (← operand.eval s).value
    return .single (← v.negate)
  | .call name args => do
    let f ← Function.resolve name args.length
    if f = .conditional then evalChoice s args else f.applyAggregate (← evalAll s args)

/-- The branch that a condition chooses. -/
def evalChoice (s : Surroundings) : List Expr → Except Failure Operand
  | [condition, yes, no] => do
    let v ← (← condition.eval s).value
    if v.isTrue then yes.eval s else no.eval s
  | args => .error (.argumentCount Function.conditional.name (.exactly 3) args.length)

/-- The operands that formulas evaluate to. -/
def evalAll (s : Surroundings) : List Expr → Except Failure (List Operand)
  | [] => .ok []
  | e :: es => do
    let v ← e.eval s
    let vs ← evalAll s es
    return v :: vs

end

/-- The single value that a formula evaluates to. -/
def value (s : Surroundings) (e : Expr) : Except Failure Value := do
  (← e.eval s).value

end Expr

end Spreadsheet
