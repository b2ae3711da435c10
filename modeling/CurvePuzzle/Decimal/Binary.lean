/-!
# Binary floats taken apart

A finite float is `± mantissa * 2 ^ exponent`. `Binary.ofFloat?` reads the two numbers off the
bit pattern, so that every rule about decimal text can be stated and computed in exact natural
arithmetic.
-/

set_option autoImplicit false

namespace CurvePuzzle.Decimal

/-- A finite float: `mantissa * 2 ^ exponent`, negated if `negative`. -/
structure Binary where
  negative : Bool
  mantissa : Nat
  exponent : Int
  deriving DecidableEq, Repr

namespace Binary

/-- The top bit of the mantissa of every float but the very small ones, which no bit pattern
holds. -/
def implicitBit : Nat := Nat.pow 2 52

/-- The value of a bit pattern of 64 bits that is neither infinite nor undefined: with exponent
field 0 the mantissa is the fraction field, otherwise it has the implicit top bit. -/
def ofBits? (bits : Nat) : Option Binary :=
  let negative := bits / Nat.pow 2 63 == 1
  let field := bits / implicitBit % 2048
  let fraction := bits % implicitBit
  if field == 2047 then none
  else if field == 0 then some ⟨negative, fraction, -1074⟩
  else some ⟨negative, implicitBit + fraction, (field : Int) - 1075⟩

/-- The parts of a finite float. -/
def ofFloat? (v : Float) : Option Binary := ofBits? v.toBits.toNat

/-- Is the next smaller float nearer than the next larger one? So it is at a power of two. -/
def isBoundary (b : Binary) : Bool := b.mantissa == implicitBit && decide (-1074 < b.exponent)

end Binary

/-- A positive rational number, as it is handled by the digit search. -/
structure Ratio where
  num : Nat
  den : Nat
  deriving DecidableEq, Repr

/-- `n * 2 ^ two * 10 ^ ten` as a quotient of natural numbers. -/
def Ratio.scale (n : Nat) (two ten : Int) : Ratio :=
  ⟨n * Nat.pow 2 two.toNat * Nat.pow 10 ten.toNat,
    Nat.pow 2 (-two).toNat * Nat.pow 10 (-ten).toNat⟩

end CurvePuzzle.Decimal
