/-!
# The arithmetic of curves

`Scalar` is the arithmetic that evaluation, tracing and hit testing need of their numbers. The
program runs at `Float`; the same definitions can be read over an exact number type, where no
rounding interferes.

* `Scalar` holds the four operations, the comparisons, decimal literals, and three operations of
  its own: `abs`, `isFinite` and the total order `precedes`. That `<` and `≤` are decidable is asked
  for beside it.
* `precedes` refines `≤`: it also orders the two zeros and the values that no comparison accepts,
  so that sorting is defined for every list.
-/

set_option autoImplicit false

namespace CurvePuzzle

/-- A number type that curves can be computed in. -/
class Scalar (α : Type) extends
    Add α, Sub α, Mul α, Div α, Neg α, LT α, LE α, BEq α, OfScientific α where
  /-- The magnitude of a number. -/
  abs : α → α
  /-- Is this an ordinary number, neither infinite nor undefined? -/
  isFinite : α → Bool
  /-- The order in which points are sorted: total, and finer than `≤`. -/
  precedes : α → α → Bool

/-- The bit that holds the sign of a float. -/
def signBit : Nat := Nat.pow 2 63

/-- Is the sign bit set? True of `-0` as well. -/
def isNegative (v : Float) : Bool := v.toBits >>> 63 == 1

/-- The place of a float in the total order of binary floats: negative ones by falling magnitude,
then `-0`, `0`, and the positive ones by rising magnitude. -/
def orderKey (v : Float) : Int :=
  let bits := v.toBits.toNat
  if bits < signBit then bits else (signBit : Int) - 1 - bits

instance : Scalar Float where
  abs := Float.abs
  isFinite := Float.isFinite
  precedes a b := decide (orderKey a ≤ orderKey b)

end CurvePuzzle
