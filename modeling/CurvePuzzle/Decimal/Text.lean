import CurvePuzzle.Decimal.Shortest

/-!
# Numbers as text

A float is written with the fewest digits that read back, in one of three styles that differ in
where they change to exponent form and in how they mark a whole number; `fixed` writes a given
number of places instead.

* `plain` never uses an exponent: `1`, `0.1`, `-0`, `100000000000000000000000`.
* `marked` gives every number a fraction or an exponent: `9.0`, `1e16`, `1.5e-5`.
* `scientific` always uses an exponent: `0e0`, `2.5e0`, `-1.25e21`.
* `fixed places` rounds the exact value, a half to the even neighbour: `4.16`, `-0.00`.
-/

set_option autoImplicit false

namespace CurvePuzzle.Decimal

/-- How the digits of a number are laid out. -/
structure Style where
  /-- Is a number whose leading digit has this exponent written without an exponent mark? -/
  positional : Int → Bool
  /-- What follows the digits of a whole number that is written without an exponent mark. -/
  whole : List Char

/-- Positional whatever the size. -/
def plain : Style := ⟨fun _ => true, []⟩

/-- Positional from `1e-4` up to below `1e16`, where a whole number ends in `.0`. -/
def marked : Style := ⟨fun e => decide (-4 ≤ e ∧ e < 16), ['.', '0']⟩

/-- An exponent whatever the size. -/
def scientific : Style := ⟨fun _ => false, []⟩

/-- The decimal digits of a natural number. -/
def natText (n : Nat) : List Char := Nat.toDigits 10 n

/-- An integer with its sign, if it is negative. -/
def intText (i : Int) : List Char :=
  if i < 0 then '-' :: natText i.natAbs else natText i.natAbs

/-- A decimal number laid out without an exponent mark. -/
def Digits.positional (d : Digits) (whole : List Char) : List Char :=
  let digits := natText d.coefficient
  let lead : Int := d.exponent + digits.length - 1
  if 0 ≤ d.exponent then digits ++ List.replicate d.exponent.toNat '0' ++ whole
  else if 0 ≤ lead then digits.take (lead + 1).toNat ++ '.' :: digits.drop (lead + 1).toNat
  else '0' :: '.' :: (List.replicate (-lead - 1).toNat '0' ++ digits)

/-- A decimal number with one digit before the point and an exponent mark. -/
def Digits.scientific (d : Digits) : List Char :=
  let digits := natText d.coefficient
  let lead : Int := d.exponent + digits.length - 1
  let fraction := if digits.length ≤ 1 then [] else '.' :: digits.drop 1
  digits.take 1 ++ fraction ++ 'e' :: intText lead

/-- A decimal number in a style. -/
def Digits.text (style : Style) (d : Digits) : List Char :=
  if style.positional (d.exponent + (natText d.coefficient).length - 1) then
    d.positional style.whole
  else d.scientific

/-- The digits that stand for the magnitude of a finite float. -/
def Binary.digits (b : Binary) : Digits :=
  if b.mantissa = 0 then ⟨0, 0⟩ else b.shortest

/-- A float in a style; the undefined value has no sign. -/
def text (style : Style) (v : Float) : List Char :=
  match Binary.ofFloat? v with
  | some b => (if b.negative then ['-'] else []) ++ b.digits.text style
  | none =>
    if v.isNaN then ['N', 'a', 'N'] else if v < 0 then ['-', 'i', 'n', 'f'] else ['i', 'n', 'f']

/-- A float in the style of the journal and of messages, without an exponent. -/
def plainText (v : Float) : String := String.ofList (text plain v)

/-- A float in the style of messages about areas, marked as a fraction. -/
def markedText (v : Float) : String := String.ofList (text marked v)

/-- The natural number nearest to a quotient, a half going to the even neighbour. -/
def roundHalfEven (r : Ratio) : Nat :=
  let floor := r.num / r.den
  let rest := 2 * (r.num % r.den)
  if rest < r.den then floor
  else if r.den < rest then floor + 1
  else floor + floor % 2

/-- A float with this many digits after the point. -/
def fixed (places : Nat) (v : Float) : List Char :=
  match Binary.ofFloat? v with
  | some b =>
    let scaled := natText (roundHalfEven (Ratio.scale b.mantissa b.exponent places))
    let padded := List.replicate (places + 1 - scaled.length) '0' ++ scaled
    let whole := padded.length - places
    (if b.negative then ['-'] else []) ++ padded.take whole ++
      (if places = 0 then [] else '.' :: padded.drop whole)
  | none => text plain v

end CurvePuzzle.Decimal
