import Spreadsheet.Evaluation.Operand

/-!
# Functions

There are six aggregates, one of them under two names, and the condition `IF`. An aggregate
takes any number of arguments and flattens the ranges among them. All but `COUNT` look at the
numbers only and skip every other value; over no numbers at all they are zero. `COUNT` counts
what is not empty.

A sum starts from negative zero, the neutral element of the addition of doubles; an average
starts from zero.
-/

namespace Spreadsheet

/-- A function that formulas can call. -/
inductive Function where
  | sum
  | average
  | avg
  | min
  | max
  | count
  | conditional
deriving DecidableEq, Repr

/-- The numbers of arguments that a function accepts. -/
structure Signature where
  name : String
  least : Nat
  most : Option Nat

namespace Signature

/-- What is wrong with a call with so many arguments, if anything is. -/
def mismatch (s : Signature) (count : Nat) : Option Arity :=
  match s.most with
  | some most =>
    if most = s.least ∧ count ≠ most then some (.exactly most)
    else if most < count then some (.atMost most)
    else if count < s.least then some (.atLeast s.least)
    else none
  | none => if count < s.least then some (.atLeast s.least) else none

/-- Fails unless so many arguments are accepted. -/
def check (s : Signature) (count : Nat) : Except Failure Unit :=
  match s.mismatch count with
  | some expected => .error (.argumentCount s.name expected count)
  | none => .ok ()

end Signature

namespace Function

/-- All functions, by name. -/
def all : List Function :=
  [average, avg, count, conditional, max, min, sum]

/-- The name of a function. -/
def name : Function → String
  | sum => "SUM"
  | average => "AVERAGE"
  | avg => "AVG"
  | min => "MIN"
  | max => "MAX"
  | count => "COUNT"
  | conditional => "IF"

/-- The signature of a function. -/
def signature (f : Function) : Signature :=
  match f with
  | conditional => ⟨f.name, 3, some 3⟩
  | _ => ⟨f.name, 0, none⟩

/-- The function of a name, in any case. -/
def ofName? (name : String) : Option Function :=
  all.find? fun f => Text.sameLetters f.name.toList name.toList

end Function

namespace Aggregate

/-- The values of all arguments, one after the other. -/
def values (args : List Operand) : List Value :=
  args.flatMap Operand.values

/-- The numbers among the values of all arguments. -/
def numbers (args : List Operand) : List Float :=
  (values args).filterMap Value.number?

/-- The result of an aggregate, if a double can hold it. -/
def finite (n : Float) : Except Failure Operand :=
  if n.isFinite then .ok (.single (.number n))
  else .error (.invalidValue (.infiniteAggregate n))

/-- The sum of numbers. -/
def sum (ns : List Float) : Float :=
  ns.foldl (· + ·) (-0.0)

/-- The average of numbers. -/
def average (ns : List Float) : Float :=
  if ns.isEmpty then 0 else ns.foldl (· + ·) 0 / Float.ofNat ns.length

/-- The smaller of two numbers; what is no number loses. -/
def smaller (a b : Float) : Float :=
  if a.isNaN then b else if b.isNaN then a else if b < a then b else a

/-- The larger of two numbers; what is no number loses. -/
def larger (a b : Float) : Float :=
  if a.isNaN then b else if b.isNaN then a else if a < b then b else a

/-- Combines the numbers from the left. -/
def reduce (f : Float → Float → Float) : List Float → Float
  | [] => 0
  | n :: ns => ns.foldl f n

/-- How many values are not empty. -/
def count (vs : List Value) : Nat :=
  vs.countP fun v => !v.isEmpty

end Aggregate

/-- The number that an aggregate makes of its arguments. The condition is none: it chooses between
its arguments before they are evaluated. -/
def Function.aggregate (f : Function) (args : List Operand) : Float :=
  match f with
  | sum => Aggregate.sum (Aggregate.numbers args)
  | average | avg => Aggregate.average (Aggregate.numbers args)
  | min => Aggregate.reduce Aggregate.smaller (Aggregate.numbers args)
  | max => Aggregate.reduce Aggregate.larger (Aggregate.numbers args)
  | count => Float.ofNat (Aggregate.count (Aggregate.values args))
  | conditional => 0

end Spreadsheet
