import CurvePuzzle.Scalar
import CurvePuzzle.Formula.Basic

/-!
# Evaluation

The value of a formula at a number, or none where the formula is undefined: a member without a
value leaves the whole without one, a divisor must not be within `1e-10` of zero, a product or
power must stay finite, and a function must accept its argument.

* `Transcendental` supplies power and the six functions as partial functions.
* `eval?` is the value. Sums and products are computed from the left, in `sumFrom?` and
  `productFrom?`.
-/

set_option autoImplicit false

namespace CurvePuzzle

/-- Power and the six functions, where they are defined. -/
class Transcendental (α : Type) where
  pow? : α → α → Option α
  value? : FunctionName → α → Option α

namespace FunctionName

/-- Is the argument in the domain of the function? -/
def accepts (f : FunctionName) (v : Float) : Bool :=
  match f with
  | ln => v.isFinite && decide (0 < v)
  | _ => v.isFinite

/-- The function itself, without regard to its domain. -/
def apply (f : FunctionName) (v : Float) : Float :=
  match f with
  | abs => v.abs
  | exp => v.exp
  | ln => v.log
  | sin => v.sin
  | cos => v.cos
  | tan => v.tan

end FunctionName

instance : Transcendental Float where
  pow? a b :=
    let v := a.pow b
    if v.isFinite then some v else none
  value? f v := if f.accepts v then some (f.apply v) else none

/-- The number by which a term of this polarity is multiplied. -/
def Polarity.unit {α : Type} [Scalar α] : Polarity → α
  | direct => 1.0
  | inverse => -1.0

namespace Formula

variable {α : Type} [Scalar α] [DecidableLT α] [Transcendental α]

/-- A running product with one more factor, if it is defined and finite. -/
def multiply? (acc : α) (p : Polarity) (v : α) : Option α :=
  let next? :=
    match p with
    | .direct => some (acc * v)
    | .inverse => if Scalar.abs v < (1e-10 : α) then none else some (acc / v)
  next?.filter Scalar.isFinite

mutual

/-- The value of a formula at `x`, where it has one. -/
def eval? (x : α) : Formula α → Option α
  | const v => some v
  | var => some x
  | sum ts => sumFrom? x 0.0 ts
  | product fs => productFrom? x 1.0 fs
  | pow b e =>
    match eval? x b, eval? x e with
    | some u, some v => Transcendental.pow? u v
    | _, _ => none
  | func f a =>
    match eval? x a with
    | some v => Transcendental.value? f v
    | none => none
  | invalid => none

/-- A running sum with the values of further terms added to it. -/
def sumFrom? (x : α) : α → List (Polarity × Formula α) → Option α
  | acc, [] => some acc
  | acc, (p, t) :: ts =>
    match eval? x t with
    | some v => sumFrom? x (acc + p.unit * v) ts
    | none => none

/-- A running product with the values of further factors taken in. -/
def productFrom? (x : α) : α → List (Polarity × Formula α) → Option α
  | acc, [] => some acc
  | acc, (p, t) :: ts =>
    match eval? x t with
    | some v =>
      match multiply? acc p v with
      | some next => productFrom? x next ts
      | none => none
    | none => none

end

end Formula

end CurvePuzzle
