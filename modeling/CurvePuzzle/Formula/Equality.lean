import CurvePuzzle.Scalar
import CurvePuzzle.Formula.Basic

/-!
# Equality of formulas

Two formulas are equal when they have the same shape up to the order of terms and factors, and
constants that stand at the same place differ by less than `1e-10`.

* `claim?` removes the first element that passes a test.
* `agree` is the comparison. The members of a sum or product are compared as a multiset: every
  member on the left claims the first equal one that is still unclaimed on the right.
-/

set_option autoImplicit false

namespace CurvePuzzle

/-- The list without its first element that passes the test, if there is one. -/
def claim? {β : Type} (test : β → Bool) : List β → Option (List β)
  | [] => none
  | b :: bs => if test b then some bs else (claim? test bs).map (b :: ·)

namespace Formula

variable {α : Type} [Scalar α] [DecidableLT α]

/-- Do two constants differ by less than the tolerance? -/
def closeTo (a b : α) : Bool := decide (Scalar.abs (a - b) < (1e-10 : α))

mutual

/-- Are two formulas equal, up to order and tolerance? -/
def agree : Formula α → Formula α → Bool
  | const a, const b => closeTo a b
  | var, var => true
  | invalid, invalid => true
  | sum ts, sum us => agreeAll ts us
  | product fs, product gs => agreeAll fs gs
  | pow a b, pow c d => agree a c && agree b d
  | func f a, func g b => f == g && agree a b
  | _, _ => false

/-- Does every member on the left claim a partner, with none left over on the right? -/
def agreeAll : List (Polarity × Formula α) → List (Polarity × Formula α) → Bool
  | [], us => us.isEmpty
  | (p, t) :: ts, us =>
    match claim? (fun u => p == u.1 && agree t u.2) us with
    | none => false
    | some rest => agreeAll ts rest

end

instance : BEq (Formula α) := ⟨agree⟩

end Formula

end CurvePuzzle
