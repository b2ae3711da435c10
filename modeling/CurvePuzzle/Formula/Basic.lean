/-!
# Formulas

A formula in the one variable `x` is a tree of constants, sums, products, powers and the six
elementary functions. Sums and products have any number of members, and subtraction and division
are not nodes of their own: every member of a sum or product carries a `Polarity`.

* `Formula α` is the tree, over a number type `α` of constants. `Formula.invalid` stands for a text
  that is no formula; it has no value and no canonical text.
* `precedence` is the level at which a formula binds; canonical texts are bracketed by it.
* The operators `+`, `-`, `*`, `/` append to a sum or product on their left.
-/

set_option autoImplicit false

namespace CurvePuzzle

/-- How a member enters its sum or product: as it is, or negated in a sum and inverted in a
product. -/
inductive Polarity where
  | direct
  | inverse
  deriving DecidableEq, Repr

namespace Polarity

/-- The sign written before a term. -/
def termSign : Polarity → Char
  | direct => '+'
  | inverse => '-'

/-- The sign written before a factor. -/
def factorSign : Polarity → Char
  | direct => '*'
  | inverse => '/'

/-- The polarity of a term with this sign. -/
def ofTermSign? : Char → Option Polarity
  | '+' => some direct
  | '-' => some inverse
  | _ => none

/-- The polarity of a factor with this sign. -/
def ofFactorSign? : Char → Option Polarity
  | '*' => some direct
  | '/' => some inverse
  | _ => none

@[simp] theorem ofTermSign?_termSign (p : Polarity) : ofTermSign? p.termSign = some p := by
  cases p <;> rfl

@[simp] theorem ofFactorSign?_factorSign (p : Polarity) :
    ofFactorSign? p.factorSign = some p := by
  cases p <;> rfl

theorem ofTermSign?_eq_some_iff {c : Char} {p : Polarity} :
    ofTermSign? c = some p ↔ c = p.termSign := by
  unfold ofTermSign?
  split <;> cases p <;> simp_all [termSign]

theorem ofFactorSign?_eq_some_iff {c : Char} {p : Polarity} :
    ofFactorSign? c = some p ↔ c = p.factorSign := by
  unfold ofFactorSign?
  split <;> cases p <;> simp_all [factorSign]

end Polarity

/-- The six functions of one argument. -/
inductive FunctionName where
  | abs
  | exp
  | ln
  | sin
  | cos
  | tan
  deriving DecidableEq, Repr

namespace FunctionName

/-- Every function, in the order in which their names are looked for in a text. -/
def all : List FunctionName := [abs, exp, ln, sin, cos, tan]

/-- The name of a function, as it is read and written. -/
def word : FunctionName → List Char
  | abs => ['a', 'b', 's']
  | exp => ['e', 'x', 'p']
  | ln => ['l', 'n']
  | sin => ['s', 'i', 'n']
  | cos => ['c', 'o', 's']
  | tan => ['t', 'a', 'n']

/-- The function of this name; names are lower case. -/
def ofWord? (cs : List Char) : Option FunctionName := all.find? fun f => f.word == cs

@[simp] theorem ofWord?_word (f : FunctionName) : ofWord? f.word = some f := by
  cases f <;> rfl

end FunctionName

/-- A formula in one variable, with constants of the type `α`. -/
inductive Formula (α : Type) where
  | const (value : α)
  | var
  | sum (terms : List (Polarity × Formula α))
  | product (factors : List (Polarity × Formula α))
  | pow (base exponent : Formula α)
  | func (name : FunctionName) (argument : Formula α)
  | invalid

namespace Formula

variable {α : Type}

instance : Inhabited (Formula α) := ⟨invalid⟩

/-- Is this the stand-in for a text that is no formula? It may still occur further down. -/
def isInvalid : Formula α → Bool
  | invalid => true
  | _ => false

/-- The level at which a formula binds: sums 1, products 2, powers and functions 3, leaves 0. -/
def precedence : Formula α → Nat
  | const _ => 0
  | var => 0
  | invalid => 0
  | sum _ => 1
  | product _ => 2
  | pow _ _ => 3
  | func _ _ => 3

/-- `a + b`; a sum on the left takes `b` as a further term. -/
def add : Formula α → Formula α → Formula α
  | sum ts, b => sum (ts ++ [(.direct, b)])
  | a, b => sum [(.direct, a), (.direct, b)]

/-- `a - b`; a sum on the left takes `b` as a further term. -/
def sub : Formula α → Formula α → Formula α
  | sum ts, b => sum (ts ++ [(.inverse, b)])
  | a, b => sum [(.direct, a), (.inverse, b)]

/-- `a * b`; a product on the left takes `b` as a further factor. -/
def mul : Formula α → Formula α → Formula α
  | product fs, b => product (fs ++ [(.direct, b)])
  | a, b => product [(.direct, a), (.direct, b)]

/-- `a / b`; a product on the left takes `b` as a further factor. -/
def div : Formula α → Formula α → Formula α
  | product fs, b => product (fs ++ [(.inverse, b)])
  | a, b => product [(.direct, a), (.inverse, b)]

/-- `-a`, a sum of one negated term. -/
def neg (a : Formula α) : Formula α := sum [(.inverse, a)]

instance : Add (Formula α) := ⟨add⟩
instance : Sub (Formula α) := ⟨sub⟩
instance : Mul (Formula α) := ⟨mul⟩
instance : Div (Formula α) := ⟨div⟩
instance : Neg (Formula α) := ⟨neg⟩
instance : HPow (Formula α) (Formula α) (Formula α) := ⟨pow⟩

end Formula

end CurvePuzzle
