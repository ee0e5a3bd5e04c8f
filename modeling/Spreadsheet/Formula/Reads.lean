import Spreadsheet.Formula.Expr

/-!
# What a formula reads

The addresses that a formula mentions are listed in the order in which they are first seen, with
every range spread out row by row and every address once. Only those inside an extent may be
asked for; ranges are then clipped before they are spread out, so a whole column costs no more
than the rows that the sheet has.

Both branches of a condition are mentioned, although only one of them will be evaluated.
-/

namespace Spreadsheet

/-- A list without repetitions: each address stays where it occurs first. -/
def firstSeen (as : List Address) : List Address :=
  let step := fun (found : AddressSet × List Address) a =>
    if a ∈ found.1 then found else (found.1.insert a, a :: found.2)
  (as.foldl step (∅, [])).2.reverse

namespace Range

/-- The part of a range inside an extent; without an extent, all of it. -/
def clip (r : Range) : Option Range → Option Range
  | some extent => r.intersection extent
  | none => some r

end Range

namespace Expr

mutual

/-- The addresses that a formula mentions, in order and with repetitions. -/
def mentions (extent : Option Range) : Expr → List Address
  | .cell r => if extent.all (·.contains r.address) then [r.address] else []
  | .range first second =>
    (((Reference.rectangle first second).clip extent).map Range.cells).getD []
  | .binary _ left right => left.mentions extent ++ right.mentions extent
  | .negate operand => operand.mentions extent
  | .call _ args => mentionsAll extent args
  | .number _ => []
  | .text _ => []
  | .boolean _ => []
  | .lost => []

/-- The addresses that a list of formulas mentions. -/
def mentionsAll (extent : Option Range) : List Expr → List Address
  | [] => []
  | e :: es => e.mentions extent ++ mentionsAll extent es

end

/-- Every address that a formula reads. -/
def reads (e : Expr) : List Address :=
  firstSeen (e.mentions none)

/-- Every address inside `extent` that a formula reads. -/
def readsWithin (extent : Range) (e : Expr) : List Address :=
  firstSeen (e.mentions (some extent))

end Expr

end Spreadsheet
