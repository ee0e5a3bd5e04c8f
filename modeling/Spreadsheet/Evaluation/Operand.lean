import Spreadsheet.Evaluation.Error

/-!
# Operands and operators

What a part of a formula evaluates to is one value or the values of a range. A range is good
only as an argument of a function; in any other place it is a fault.

Numbers and empty values, which count as zero, are computed with and compared as doubles. With
any other value the plus sign joins texts if one of the two is a text, the two tests for
equality compare values, and nothing else is defined. An operator never results in an infinite
number or in no number: that is a fault too.
-/

namespace Spreadsheet

/-- What a part of a formula evaluates to. -/
inductive Operand where
  | single (v : Value)
  /-- The values of a range, row by row. -/
  | many (vs : List Value)
deriving DecidableEq

namespace Operand

/-- The single value that an operand is. -/
def value : Operand → Except Failure Value
  | single v => .ok v
  | many vs => .error (.invalidValue (.rangeAsValue vs.length))

/-- The values of an operand. -/
def values : Operand → List Value
  | single v => [v]
  | many vs => vs

@[simp] theorem value_single (v : Value) : (single v).value = .ok v := rfl

@[simp] theorem values_single (v : Value) : (single v).values = [v] := rfl

@[simp] theorem values_many (vs : List Value) : (many vs).values = vs := rfl

end Operand

namespace BinaryOp

/-- The result of an operator that computes, if a double can hold it. -/
def finite (op : BinaryOp) (left right result : Float) : Except Failure Value :=
  if result.isFinite then .ok (.number result)
  else .error (.invalidValue (.infiniteResult op left right))

/-- An operator applied to two numbers. -/
def applyNumbers (op : BinaryOp) (left right : Float) : Except Failure Value :=
  match op with
  | add => op.finite left right (left + right)
  | subtract => op.finite left right (left - right)
  | multiply => op.finite left right (left * right)
  | divide =>
    if right == 0 then .error .divisionByZero else op.finite left right (left / right)
  | power => op.finite left right (left.pow right)
  | equal => .ok (.boolean (left == right))
  | notEqual => .ok (.boolean (left != right))
  | less => .ok (.boolean (decide (left < right)))
  | lessEqual => .ok (.boolean (decide (left ≤ right)))
  | greater => .ok (.boolean (decide (right < left)))
  | greaterEqual => .ok (.boolean (decide (right ≤ left)))

/-- An operator applied to two values that are not both numbers. -/
def applyOthers (op : BinaryOp) (left right : Value) : Except Failure Value :=
  match op with
  | add =>
    if left.isText || right.isText then .ok (.text (left.display ++ right.display))
    else .error (.invalidValue (.inapplicable op left right))
  | equal => .ok (.boolean (decide (left = right)))
  | notEqual => .ok (.boolean (decide (left ≠ right)))
  | _ => .error (.invalidValue (.inapplicable op left right))

/-- An operator applied to two values. -/
def apply (op : BinaryOp) (left right : Value) : Except Failure Value :=
  match left.operand?, right.operand? with
  | some l, some r => op.applyNumbers l r
  | _, _ => op.applyOthers left right

end BinaryOp

/-- The negative of a value; empty counts as zero. -/
def Value.negate (v : Value) : Except Failure Value :=
  match v.operand? with
  | some n => .ok (.number (-n))
  | none => .error (.invalidValue (.notNegatable v))

end Spreadsheet
