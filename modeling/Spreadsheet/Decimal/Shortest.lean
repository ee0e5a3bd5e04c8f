/-!
# The shortest decimal of a number

Every finite double `m * 2 ^ q` owns an interval of reals that round to it; the ends belong to
it exactly when `m` is even. Its shortest decimal is found on the coarsest grid of multiples of
a power of ten that has a point in the interval. If a grid has such a point at all, one of the
two neighbours of the number on that grid is one, so only these are tried. When both of them
lie inside, the nearer one is taken, and an exact tie is left to the format.

The search runs from coarse to fine, so no decimal with fewer digits reads back as the number.
-/

namespace Spreadsheet.Decimal

/-- Which of two equally near decimals a format takes. -/
inductive Tie where
  | up
  | even
deriving DecidableEq, Repr

/-- The positive decimal `digits * 10 ^ exponent`. -/
structure Scaled where
  digits : Nat
  exponent : Int
deriving DecidableEq, Repr

/-- The positive number `mantissa * 2 ^ exponent`. -/
structure Binary where
  mantissa : Nat
  exponent : Int
  /-- Whether the next number below is only half as far away as the next one above. -/
  closeBelow : Bool
deriving DecidableEq, Repr

/-- The magnitude of a finite double. -/
def Binary.ofFloat (x : Float) : Binary :=
  let bits : Nat := x.toBits.toNat % Nat.pow 2 63
  let fraction : Nat := bits % Nat.pow 2 52
  let biased : Nat := bits / Nat.pow 2 52
  if biased = 0 then ⟨fraction, -1074, false⟩
  else ⟨fraction + Nat.pow 2 52, (biased : Int) - 1075, fraction = 0 ∧ 1 < biased⟩

/-- The number, the ends of its interval and the step of the grid as whole multiples of one
unit. -/
structure Measured where
  value : Nat
  low : Nat
  high : Nat
  step : Nat
  closed : Bool

/-- Measures a number against the grid of the multiples of `10 ^ place`. The unit is a quarter
of the spacing of doubles at the number, made small enough for the grid. -/
def Binary.measure (b : Binary) (place : Int) : Measured :=
  let power := b.exponent - 2
  let unit := Nat.pow 2 power.toNat * Nat.pow 10 (-place).toNat
  { value := 4 * b.mantissa * unit
    low := (4 * b.mantissa - if b.closeBelow then 1 else 2) * unit
    high := (4 * b.mantissa + 2) * unit
    step := Nat.pow 2 (-power).toNat * Nat.pow 10 place.toNat
    closed := b.mantissa % 2 = 0 }

/-- Whether a point of the grid lies in the interval. -/
def Measured.covers (m : Measured) (point : Nat) : Bool :=
  let place := point * m.step
  if m.closed then m.low ≤ place && place ≤ m.high else m.low < place && place < m.high

/-- The point of the grid to take, if it has one in the interval. -/
def Measured.choose (m : Measured) (tie : Tie) : Option Nat :=
  let below := m.value / m.step
  let above := below + 1
  match m.covers below, m.covers above with
  | false, false => none
  | true, false => some below
  | false, true => some above
  | true, true =>
    let middle := (below + above) * m.step
    if 2 * m.value < middle then some below
    else if middle < 2 * m.value then some above
    else
      match tie with
      | .up => some above
      | .even => if below % 2 = 0 then some below else some above

/-- Searches the grids from `10 ^ place` on, each one ten times finer than the one before. -/
def search (b : Binary) (tie : Tie) : Nat → Int → Scaled
  | 0, place => ⟨0, place⟩
  | tries + 1, place =>
    match (b.measure place).choose tie with
    | some digits => ⟨digits, place⟩
    | none => search b tie tries (place - 1)

/-- The shortest decimal of the magnitude of a finite double other than zero. No double
reaches `10 ^ 309`, and all of them are multiples of `10 ^ (-1074)`. -/
def shortest (x : Float) (tie : Tie) : Scaled :=
  search (Binary.ofFloat x) tie 1384 309

end Spreadsheet.Decimal
