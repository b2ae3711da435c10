import CurvePuzzle.Proofs.ExactArithmetic
import CurvePuzzle.Proofs.Reordering

/-!
# Values and order

A sum or product takes in its members from the left, and has no value as soon as one of them stops
it: a member without a value, or a divisor near zero. Over exact arithmetic neither the value nor
whether there is one depends on the order in which the members come.

* `addTerm?`, `takeFactor?`: one member taken in; `sumFrom?_eq`, `productFrom?_eq`: a running sum or
  product takes in its members one after the other.
* `foldlM_perm`: a row of steps of which any two may be exchanged can come in any order.
* `Exact.addTerm?_swap`, `Exact.takeFactor?_swap`: terms and factors may be exchanged.
* `Exact.reordered_has_same_values`: a formula and its reorderings have the same curve.
-/

set_option autoImplicit false

namespace CurvePuzzle

namespace Formula

/-! ## One member after the other -/

section Steps

variable {α : Type} [Scalar α] [DecidableLT α] [Transcendental α]

/-- A running sum with one more term, if the term has a value. -/
def addTerm? (x s : α) (m : Polarity × Formula α) : Option α :=
  (eval? x m.2).map fun v => s + m.1.unit * v

/-- A running product with one more factor, if the factor has a value and can be taken in. -/
def takeFactor? (x s : α) (m : Polarity × Formula α) : Option α :=
  (eval? x m.2).bind fun v => multiply? s m.1 v

theorem sumFrom?_eq (x s : α) (ts : List (Polarity × Formula α)) :
    sumFrom? x s ts = ts.foldlM (addTerm? x) s := by
  induction ts generalizing s with
  | nil => simp [sumFrom?]
  | cons m ts ih =>
    rw [sumFrom?, List.foldlM_cons, addTerm?]
    cases eval? x m.2 with
    | none => simp
    | some v => simp [ih]

theorem productFrom?_eq (x s : α) (fs : List (Polarity × Formula α)) :
    productFrom? x s fs = fs.foldlM (takeFactor? x) s := by
  induction fs generalizing s with
  | nil => simp [productFrom?]
  | cons m fs ih =>
    rw [productFrom?, List.foldlM_cons, takeFactor?]
    cases eval? x m.2 with
    | none => simp
    | some v =>
      cases h : multiply? s m.1 v with
      | none => simp [h]
      | some next => simp [h, ih]

end Steps

/-- **Steps that may be exchanged** can be made in any order: each of them may also fail, and a
failure of one stops the whole row wherever it stands. -/
theorem foldlM_perm {σ μ : Type} {step : σ → μ → Option σ}
    (swap : ∀ s m n, (step s m).bind (step · n) = (step s n).bind (step · m)) {ms ns : List μ}
    (perm : ms.Perm ns) (s : σ) : ms.foldlM step s = ns.foldlM step s := by
  induction perm generalizing s with
  | nil => rfl
  | cons m _ ih =>
    simp only [List.foldlM_cons]
    cases step s m with
    | none => rfl
    | some t => exact ih t
  | swap m n ms =>
    have exchange := congrArg (Option.bind · fun t => ms.foldlM step t) (swap s n m)
    simpa only [List.foldlM_cons, Option.bind_eq_bind, Option.bind_assoc] using exchange
  | trans _ _ ih ih' => rw [ih, ih']

end Formula

namespace Exact

open Formula

variable {K : Type} [Field K] [LinearOrder K]

/-- The number by which a factor multiplies the product it is taken into. -/
def share? (p : Polarity) (v : K) : Option K :=
  match p with
  | .direct => some v
  | .inverse => if |v| < (1e-10 : K) then none else some v⁻¹

theorem multiply?_eq (s : K) (p : Polarity) (v : K) :
    multiply? s p v = (share? p v).map (s * ·) := by
  have finite (o : Option K) : o.filter Scalar.isFinite = o := by
    cases o <;> rfl
  cases p with
  | direct =>
    have multiplied : multiply? s .direct v = some (s * v) := finite (some (s * v))
    rw [multiplied, share?, Option.map_some]
  | inverse =>
    have divided : multiply? s .inverse v = if |v| < (1e-10 : K) then none else some (s / v) :=
      finite _
    rw [divided, share?]
    split
    · rfl
    · simp [div_eq_mul_inv]

/-! ## Two members exchanged -/

variable [Transcendental K]

theorem addTerm?_swap (x s : K) (m n : Polarity × Formula K) :
    (addTerm? x s m).bind (addTerm? x · n) = (addTerm? x s n).bind (addTerm? x · m) := by
  unfold addTerm?
  cases eval? x m.2 <;> cases eval? x n.2 <;> simp [add_right_comm]

theorem takeFactor?_swap (x s : K) (m n : Polarity × Formula K) :
    (takeFactor? x s m).bind (takeFactor? x · n) =
      (takeFactor? x s n).bind (takeFactor? x · m) := by
  unfold takeFactor?
  cases eval? x m.2 with
  | none => cases eval? x n.2 <;> simp
  | some v =>
    cases eval? x n.2 with
    | none => simp
    | some w =>
      simp only [Option.bind_some, multiply?_eq]
      cases share? m.1 v <;> cases share? n.1 w <;> simp [mul_right_comm]

/-! ## Formulas -/

/-- **Reordered formulas have the same curve**: at every number both have the same value, or both
have none, whatever partial functions stand for the power and the six functions. By induction on the
reordering. -/
theorem reordered_has_same_values {a b : Formula K} (h : Reordered a b) (x : K) :
    eval? x a = eval? x b := by
  induction h with
  | refl a => rfl
  | trans _ _ ih ih' => rw [ih, ih']
  | terms perm =>
    rw [eval?, eval?, sumFrom?_eq, sumFrom?_eq]
    exact foldlM_perm (addTerm?_swap x) perm _
  | factors perm =>
    rw [eval?, eval?, productFrom?_eq, productFrom?_eq]
    exact foldlM_perm (takeFactor?_swap x) perm _
  | term before after _ ih =>
    simp only [eval?, sumFrom?_eq, List.foldlM_append, List.foldlM_cons, addTerm?, ih]
  | factor before after _ ih =>
    simp only [eval?, productFrom?_eq, List.foldlM_append, List.foldlM_cons, takeFactor?, ih]
  | base _ ih => rw [eval?, eval?, ih]
  | exponent _ ih => rw [eval?, eval?, ih]
  | argument _ ih => rw [eval?, eval?, ih]

/-- Powers with whole exponents, and the magnitude. -/
@[reducible] def wholePowers : Transcendental ℚ where
  pow? u v := if v.den = 1 ∧ 0 ≤ v then some (u ^ v.num.toNat) else none
  value? f v :=
    match f with
    | .abs => some |v|
    | _ => none

/-- `6/x-x^2` and `-x^2+1/x*6`, where the quotient is turned round as well: `-1` at `2`, and without
a value at `0`. -/
theorem reordered_has_same_values_quotient :
    let _ : Transcendental ℚ := wholePowers
    let a : Formula ℚ := .sum [(.direct, .product [(.direct, .const 6), (.inverse, .var)]),
      (.inverse, .pow .var (.const 2))]
    let b : Formula ℚ := .sum [(.inverse, .pow .var (.const 2)),
      (.direct, .product [(.inverse, .var), (.direct, .const 6)])]
    Reordered a b ∧ eval? 2 a = some (-1) ∧ eval? 2 b = some (-1) ∧ eval? 0 b = none := by
  intro _ a b
  have quotient : Reordered (.product [(.direct, .const 6), (.inverse, .var)])
      (.product [(.inverse, .var), (.direct, (.const 6 : Formula ℚ))]) :=
    .factors (.swap _ _ _)
  have order : Reordered a b := .trans (.term [] _ quotient) (.terms (.swap _ _ _))
  have value : eval? 2 a = some (-1) := by decide +kernel
  have pole : eval? 0 a = none := by decide +kernel
  exact ⟨order, value, (reordered_has_same_values order 2).symm.trans value,
    (reordered_has_same_values order 0).symm.trans pole⟩

end Exact

end CurvePuzzle
