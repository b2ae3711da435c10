import CurvePuzzle.Decimal.Binary

/-!
# The fewest digits that read back

Every real number in a certain interval around a float rounds to that float. `shortest` looks for
the decimal number with the fewest digits inside this interval, trying 1, 2, … 17 digits: on each
decimal grid it tests the two neighbours of the value, and of two that fit it takes the nearer one.
Seventeen digits always suffice.

* `Digits` is a decimal number `coefficient * 10 ^ exponent`.
* `reach` is the interval of a float, in quarters of the distance to the next float; its ends
  belong to it when the mantissa is even, because ties round to the even neighbour.
* A value exactly between two fitting neighbours goes to the larger one.
-/

set_option autoImplicit false

namespace CurvePuzzle.Decimal

/-- The decimal number `coefficient * 10 ^ exponent`. -/
structure Digits where
  coefficient : Nat
  exponent : Int
  deriving DecidableEq, Repr

/-- How many decimal digits a natural number has; zero has none. -/
def digitCount (n : Nat) : Nat := if n = 0 then 0 else (Nat.toDigits 10 n).length

/-- The exponent of the leading digit of a positive quotient. -/
def leadingExponent (r : Ratio) : Int :=
  if r.den ≤ r.num then (digitCount (r.num / r.den) : Int) - 1
  else -(digitCount ((r.den + r.num - 1) / r.num - 1) : Int)

/-- The interval of reals that round to a float, scaled by `10 ^ (-grid)`: its ends and the value
itself as numerators over one denominator, and whether the ends belong to it. -/
structure Reach where
  low : Nat
  value : Nat
  high : Nat
  den : Nat
  closed : Bool

/-- The interval of a float on the grid of multiples of `10 ^ grid`. -/
def Binary.reach (b : Binary) (grid : Int) : Reach :=
  let quarter := Ratio.scale 1 (b.exponent - 2) (-grid)
  let below := if b.isBoundary then 1 else 2
  { low := (4 * b.mantissa - below) * quarter.num
    value := 4 * b.mantissa * quarter.num
    high := (4 * b.mantissa + 2) * quarter.num
    den := quarter.den
    closed := b.mantissa % 2 == 0 }

/-- Does the grid point `n` lie in the interval? -/
def Reach.holds (r : Reach) (n : Nat) : Bool :=
  let point := n * r.den
  if r.closed then r.low ≤ point && point ≤ r.high else r.low < point && point < r.high

/-- The grid point in the interval that is nearest to the value, the larger one if two are. -/
def Reach.nearest? (r : Reach) : Option Nat :=
  let floor := r.value / r.den
  let fits := r.holds floor
  let fitsAbove := r.holds (floor + 1)
  if fits && fitsAbove then
    if r.value - floor * r.den < (floor + 1) * r.den - r.value then some floor else some (floor + 1)
  else if fits then some floor
  else if fitsAbove then some (floor + 1)
  else none

/-- Drops trailing zeros of the coefficient; `fuel` bounds their number. -/
def Digits.trim : Nat → Digits → Digits
  | 0, d => d
  | fuel + 1, d =>
    if d.coefficient ≠ 0 && d.coefficient % 10 == 0 then
      trim fuel ⟨d.coefficient / 10, d.exponent + 1⟩
    else d

/-- The fewest digits that read back as the float with these parts, which must not be zero. -/
def Binary.shortest (b : Binary) : Digits :=
  let lead := leadingExponent (Ratio.scale b.mantissa b.exponent 0)
  let found := (List.range 17).findSome? fun (i : Nat) =>
    let grid : Int := lead - i
    (b.reach grid).nearest?.map fun n => (⟨n, grid⟩ : Digits)
  (found.getD ⟨b.mantissa, b.exponent⟩).trim 20

end CurvePuzzle.Decimal
