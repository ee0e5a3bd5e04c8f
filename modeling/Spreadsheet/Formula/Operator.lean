/-!
# Operators

There are five levels of binary operators, all of them associating to the left. The two levels
that bind loosest compare, the others compute.
-/

namespace Spreadsheet

/-- A binary operator. -/
inductive BinaryOp where
  | add
  | subtract
  | multiply
  | divide
  | power
  | equal
  | notEqual
  | less
  | lessEqual
  | greater
  | greaterEqual
deriving DecidableEq, Repr

namespace BinaryOp

/-- All binary operators. -/
def all : List BinaryOp :=
  [add, subtract, multiply, divide, power, equal, notEqual, less, lessEqual, greater,
    greaterEqual]

/-- How tightly an operator binds, from one to five. -/
def precedence : BinaryOp → Nat
  | equal | notEqual => 1
  | less | lessEqual | greater | greaterEqual => 2
  | add | subtract => 3
  | multiply | divide => 4
  | power => 5

/-- The operator as a formula writes it. -/
def symbol : BinaryOp → String
  | add => "+"
  | subtract => "-"
  | multiply => "*"
  | divide => "/"
  | power => "^"
  | equal => "="
  | notEqual => "<>"
  | less => "<"
  | lessEqual => "<="
  | greater => ">"
  | greaterEqual => ">="

/-- The operator of a symbol. -/
def ofSymbol? (s : String) : Option BinaryOp :=
  all.find? fun op => op.symbol == s

/-- Whether an operator compares rather than computes. -/
def isComparison (op : BinaryOp) : Bool :=
  op.precedence ≤ 2

theorem one_le_precedence (op : BinaryOp) : 1 ≤ op.precedence := by
  cases op <;> decide

theorem precedence_le_five (op : BinaryOp) : op.precedence ≤ 5 := by
  cases op <;> decide

end BinaryOp

end Spreadsheet
