import Spreadsheet.Evaluation.Expr
import Spreadsheet.Sheet.Basic

/-!
# Reading cells

A formula that reads a cell evaluates that cell's formula in turn. The chain of cells that are
being evaluated is carried along: meeting one of them again is a circular reference, and a chain
may hold no more than a fixed number of cells. A cell that two formulas read, or one formula
reads twice, is no circle, because each chain ends when its cell has been read.

Results that are settled already are taken as they are, before the chain is looked at. With
every precedent settled a formula is evaluated without following any reference, so a chain can
then be of any length.
-/

namespace Spreadsheet

/-- The most cells that a chain of references may hold. -/
def maxChain : Nat := 256

/-- What a cell shows: a value, or a code with a message. -/
inductive Outcome where
  | value (v : Value)
  | error (code : ErrorCode) (message : String)
deriving DecidableEq

namespace Outcome

/-- A failure is shown by its code and wording. -/
def ofResult : Except Failure Value → Outcome
  | .ok v => value v
  | .error failure => error failure.code failure.message

/-- The code of an error. -/
def code? : Outcome → Option ErrorCode
  | value _ => none
  | error code _ => some code

/-- Whether an outcome is an error. -/
def isError (o : Outcome) : Bool :=
  o.code?.isSome

/-- What a cell shows to the outside: its value as text, or the token of its code. -/
def display : Outcome → String
  | value v => v.display
  | error code _ => code.token

/-- What a formula gets that reads a cell with this outcome at `a`. -/
def read (a : Address) : Outcome → Except Failure Value
  | value v => .ok v
  | error code message => .error (.referenced a code message)

end Outcome

/-- Outcomes of cells, row by row. -/
abbrev Outcomes := AddressMap Outcome

/-- How references are treated. -/
structure Options where
  /-- Whether references outside the extent of the sheet fail; otherwise they read as empty. -/
  strict : Bool := true
deriving DecidableEq

namespace Sheet

/-- Reads a cell inside the extent. `chain` holds the cells that are being evaluated, and `room`
is the number of cells that it may still take. -/
def read (s : Sheet) (options : Options) (settled : Outcomes) :
    (room : Nat) → (chain : List Address) → Address → Except Failure Value
  | room, chain, a =>
    match settled[a]? with
    | some outcome => outcome.read a
    | none =>
      if a ∈ chain then .error (.circular a)
      else
        match room with
        | 0 => .error (.invalidValue (.tooDeep maxChain))
        | room + 1 =>
          match s.get a with
          | none => .ok .empty
          | some (.literal v) => .ok v
          | some (.error code message) => .error (.referenced a code message)
          | some (.formula _ tree) =>
            tree.value ⟨s.extent, options.strict, s.read options settled room (a :: chain)⟩

/-- What the formula of the cell at `a` is evaluated against. -/
def surroundings (s : Sheet) (options : Options) (settled : Outcomes) (a : Address) :
    Surroundings where
  extent := s.extent
  strict := options.strict
  read := s.read options settled (maxChain - 1) [a]

/-- The outcome of the cell at an address, given the outcomes that are settled already. -/
def evaluateWith (s : Sheet) (options : Options) (settled : Outcomes) (a : Address) : Outcome :=
  match s.get a with
  | none => .value .empty
  | some (.literal v) => .value v
  | some (.error code message) => .error code message
  | some (.formula _ tree) => .ofResult (tree.value (s.surroundings options settled a))

/-- The outcome of the cell at an address. -/
def evaluate (s : Sheet) (options : Options) (a : Address) : Outcome :=
  s.evaluateWith options ∅ a

/-- The operand that a formula evaluates to as if it stood at `a`. It need not be stored there,
and it may be a range. -/
def evaluateFormula (s : Sheet) (options : Options) (a : Address) (tree : Expr) :
    Except Failure Operand :=
  tree.eval (s.surroundings options ∅ a)

end Sheet

end Spreadsheet
