/-!
# Reading numbers

Decimal text becomes a float, correctly rounded, or an integer that fits 64 bits. A float is an
optional sign, digits with at most one point among them, and an optional exponent, or one of the
words `inf`, `infinity`, `nan` in any case; an integer is an optional sign and digits.

Both readers use the whole text or fail.
-/

set_option autoImplicit false

namespace CurvePuzzle.Decimal

/-- The value of a digit character; the other characters have none to speak of. -/
def digitValue (c : Char) : Nat := c.toNat - '0'.toNat

/-- The value of a list of digits, most significant first. -/
def natOfDigits (cs : List Char) : Nat := cs.foldl (fun n c => 10 * n + digitValue c) 0

/-- The number a text of digits stands for, if it is one. -/
def readNat? (cs : List Char) : Option Nat :=
  if cs.isEmpty || !cs.all Char.isDigit then none else some (natOfDigits cs)

/-- A number that may carry a sign: what stands behind the sign, and whether it is negated. -/
def splitSign : List Char → Bool × List Char
  | '-' :: cs => (true, cs)
  | '+' :: cs => (false, cs)
  | cs => (false, cs)

/-- An integer of any size. -/
def readInt? (cs : List Char) : Option Int :=
  let (negative, digits) := splitSign cs
  (readNat? digits).map fun n => if negative then -(n : Int) else n

/-- An integer that fits 64 bits. -/
def readInteger? (cs : List Char) : Option Int :=
  (readInt? cs).filter fun i => decide (Int64.minValue.toInt ≤ i ∧ i ≤ Int64.maxValue.toInt)

/-- The exponent part of a number: nothing, or a mark and an integer. -/
def readExponent? : List Char → Option Int
  | [] => some 0
  | c :: cs => if c == 'e' || c == 'E' then readInt? cs else none

/-- The float nearest to `digits * 10 ^ exponent`. Every exponent above 400 makes a number other than
zero too large for a float, and every one that leaves 400 zeros behind the point makes it vanish,
so the power is cut off there. -/
def ofDigits (digits : List Char) (exponent : Int) : Float :=
  let exponent := max (-(digits.length : Int) - 400) (min exponent 400)
  Float.ofScientific (natOfDigits digits) (decide (exponent < 0)) exponent.natAbs

/-- A decimal number without a sign. -/
def readMagnitude? (cs : List Char) : Option Float :=
  let (whole, rest) := cs.span Char.isDigit
  let (fraction, rest) :=
    match rest with
    | '.' :: rest => rest.span Char.isDigit
    | rest => ([], rest)
  if whole.isEmpty && fraction.isEmpty then none
  else (readExponent? rest).map fun e => ofDigits (whole ++ fraction) (e - fraction.length)

/-- The words that stand for values that have no digits. -/
def readWord? (cs : List Char) : Option Float :=
  let word := cs.map Char.toLower
  if word == "nan".toList then some (0.0 / 0.0)
  else if word == "inf".toList || word == "infinity".toList then some (1.0 / 0.0)
  else none

/-- A float: the nearest one to the decimal number, a tie going to the even neighbour. -/
def readFloat? (cs : List Char) : Option Float :=
  let (negative, magnitude) := splitSign cs
  ((readMagnitude? magnitude).or (readWord? magnitude)).map fun v => if negative then -v else v

end CurvePuzzle.Decimal
