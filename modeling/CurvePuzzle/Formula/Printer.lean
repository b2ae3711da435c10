import CurvePuzzle.Scalar
import CurvePuzzle.Decimal.Text
import CurvePuzzle.Formula.Basic

/-!
# Canonical text

The canonical text of a formula is what the reader of formulas turns back into an equal formula.

* `print?` is the text, absent when some part has none: an invalid node, a constant that is not
  finite, a sum or product without members.
* A sum brackets the sums and negative constants among its terms, and a lone constant term, which
  would otherwise be read as a signed constant. A lone positive term keeps its sign.
* A product brackets the sums, products and negative constants among its factors; a leading divisor
  is written below `1`.
* Base and exponent of a power are bracketed unless they are atomic; a function always brackets its
  argument.
-/

set_option autoImplicit false

namespace CurvePuzzle

namespace Formula

/-- Is this a constant with its sign bit set? -/
def isNegativeConst : Formula Float → Bool
  | const v => isNegative v
  | _ => false

/-- Is this a constant? -/
def isConst : Formula Float → Bool
  | const _ => true
  | _ => false

/-- Can the formula stand next to a power mark without brackets? -/
def isAtomic : Formula Float → Bool
  | const v => !isNegative v
  | var => true
  | invalid => true
  | func _ _ => true
  | sum _ => false
  | product _ => false
  | pow _ _ => false

/-- Does a term need brackets? -/
def isBracketedTerm (lone : Bool) (t : Formula Float) : Bool :=
  t.precedence == 1 || t.isNegativeConst || (lone && t.isConst)

/-- Does a factor need brackets? -/
def isBracketedFactor (f : Formula Float) : Bool :=
  f.precedence == 1 || f.precedence == 2 || f.isNegativeConst

/-- A text, in brackets if asked for. -/
def bracket (needed : Bool) (cs : List Char) : List Char :=
  if needed then '(' :: (cs ++ [')']) else cs

/-- What is written before a term. -/
def termMark (first lone : Bool) (p : Polarity) : List Char :=
  if first && !lone && p == .direct then [] else [p.termSign]

/-- What is written before a factor. -/
def factorMark (first : Bool) (p : Polarity) : List Char :=
  match first, p with
  | true, .direct => []
  | true, .inverse => ['1', '/']
  | false, p => [p.factorSign]

mutual

/-- The canonical text of a formula, if it has one. -/
def print? : Formula Float → Option (List Char)
  | const v => if v.isFinite then some (Decimal.text Decimal.plain v) else none
  | var => some ['x']
  | sum ts => if ts.isEmpty then none else printTerms? (ts.length == 1) true ts
  | product fs => if fs.isEmpty then none else printFactors? true fs
  | pow b e =>
    match print? b, print? e with
    | some s, some t => some (bracket (!b.isAtomic) s ++ '^' :: bracket (!e.isAtomic) t)
    | _, _ => none
  | func f a =>
    match print? a with
    | some s => some (f.word ++ bracket true s)
    | none => none
  | invalid => none

/-- The text of the terms of a sum from some term on. -/
def printTerms? (lone first : Bool) : List (Polarity × Formula Float) → Option (List Char)
  | [] => some []
  | (p, t) :: ts =>
    match print? t, printTerms? lone false ts with
    | some s, some rest =>
      some (termMark first lone p ++ bracket (t.isBracketedTerm lone) s ++ rest)
    | _, _ => none

/-- The text of the factors of a product from some factor on. -/
def printFactors? (first : Bool) : List (Polarity × Formula Float) → Option (List Char)
  | [] => some []
  | (p, f) :: fs =>
    match print? f, printFactors? false fs with
    | some s, some rest => some (factorMark first p ++ bracket f.isBracketedFactor s ++ rest)
    | _, _ => none

end

/-- The canonical text, or a mark in its place. -/
def display (e : Formula Float) : String :=
  match e.print? with
  | some cs => String.ofList cs
  | none => "<invalid>"

end Formula

end CurvePuzzle
