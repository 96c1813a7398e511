import MinedRules.Number.Binary64

/-!
# The shortest decimal that reads back

The reals that round to a positive number form an interval around it.  The number is written with
the fewest digits that some decimal in this interval has; among the decimals with so many digits the
nearest one is taken, a tie going to the even one.

All quantities are integers: they are counted in quarters of a unit and multiplied by
`10 ^ shift`, which makes the grid points of every decimal place in question integers, too.
-/

namespace MinedRules

/-- The decimal `digits * 10 ^ exponent`. -/
structure Decimal where
  digits : Nat
  exponent : Int
  deriving DecidableEq, Repr

namespace Binary64

/-- The power of ten by which everything is multiplied. -/
def shift : Nat := 400

/-- The scaled count of quarter units that makes one. -/
def scaledOne : Nat := 4 * unitsOfOne

/-- The reals that round to a number, scaled; the ends belong to the interval if the significand is
even. -/
structure Interval where
  low : Nat
  high : Nat
  closed : Bool

/-- Does the interval hold the scaled number? -/
def Interval.holds (i : Interval) (n : Nat) : Bool :=
  if i.closed then i.low ≤ n && n ≤ i.high else i.low < n && n < i.high

/-- The scaled number itself. -/
def scaled (units : Nat) : Nat := 4 * units * Nat.pow 10 shift

/-- The interval of the reals that round to a positive count of units.  Below a power of two the
numbers stand twice as close as above it. -/
def interval (units : Nat) : Interval :=
  let above := gap units
  let below := if units = Nat.pow 2 units.log2 ∧ 1 < above then above / 2 else above
  { low := (4 * units - 2 * below) * Nat.pow 10 shift
    high := (4 * units + 2 * above) * Nat.pow 10 shift
    closed := units / above % 2 = 0 }

/-- The multiple of `10 ^ (place - shift)` that stands for a count of units: of the two neighbours
on this grid that lie in its interval, the nearer one, and of two equally near the even one. -/
def onGrid? (units place : Nat) : Option Nat :=
  let step := Nat.pow 10 place * scaledOne
  let value := scaled units
  let a := value / step
  let low := (interval units).holds (a * step)
  let high := (interval units).holds ((a + 1) * step)
  let down := value - a * step
  let up := (a + 1) * step - value
  if low && high then
    some (if down < up then a else if up < down then a + 1 else if a % 2 = 0 then a else a + 1)
  else if low then some a
  else if high then some (a + 1)
  else none

/-- The place of the first digit of a count of units, plus `shift`. -/
def firstPlace (units : Nat) : Nat := decimalLength (scaled units / scaledOne) - 1

/-- The shortest decimal of a positive count of units: the grids are tried from the coarsest one
on. -/
def shortest (units : Nat) : Decimal :=
  let top := firstPlace units
  match (List.range 17).findSome? fun n => (onGrid? units (top - n)).map fun d => (d, top - n) with
  | some (digits, place) => ⟨digits, (place : Int) - shift⟩
  | none => ⟨units, 0⟩

end Binary64

end MinedRules
