import CurvePuzzle.Proofs.CanonicalMeaning

/-!
# The operators on formulas denote arithmetic

An operator appends its right operand to a sum or product on its left and makes a new one of
anything else. Values do not tell the two apart: a sum that is extended goes on from its own value,
and any other formula enters a new sum by way of zero, a new product by way of one.

* `asTerms`, `asFactors`: what a left operand brings into the sum or product.
  `eval?_sum_asTerms`, `eval?_product_asFactors`: it brings its value, but an infinite one enters
  no product.
* `eval?_sum_append`, `eval?_product_append`: one more term, one more factor.
* `operators_denote_arithmetic`: the value of `a + b`, `a - b`, `-a`, `a * b` and `a / b`.
-/

set_option autoImplicit false

namespace CurvePuzzle

open Binary64

/-- The tolerance is a bound from below for what is neither small nor undefined. -/
theorem Binary64.tolerance_le_abs_iff {w : Float} :
    1e-10 ≤ w.abs ↔ ¬w.abs < 1e-10 ∧ w.isNaN = false := by
  have bound : code 1e-10 ≤ infinityCode := by decide
  have plus : place 1e-10 = code 1e-10 := by decide
  rw [Formula.abs_lt_tolerance_iff, le_iff, plus, ← Bool.not_eq_true, isNaN_iff]
  by_cases defined : code w ≤ infinityCode
  · have magnitude := stands_abs defined
    have above : place w.abs = code w := magnitude.place
    rw [magnitude.code, above]
    omega
  · have undefined : infinityCode < code w.abs := by
      rw [← isNaN_iff]
      show (Float.ofModel (Float.Model.pack w.toModel.unpack.abs)).isNaN = true
      rw [unpack_of_isNaN ((isNaN_iff w).2 (by omega))]
      exact isNaN_pack
    omega

namespace Formula

/-! ## The left operand -/

/-- The terms that a formula brings into a sum. -/
def asTerms {α : Type} : Formula α → List (Polarity × Formula α)
  | sum ts => ts
  | e => [(.direct, e)]

/-- The factors that a formula brings into a product. -/
def asFactors {α : Type} : Formula α → List (Polarity × Formula α)
  | product fs => fs
  | e => [(.direct, e)]

section Appending

variable {α : Type} (a b : Formula α)

theorem add_eq : a + b = sum (a.asTerms ++ [(.direct, b)]) := by cases a <;> rfl

theorem sub_eq : a - b = sum (a.asTerms ++ [(.inverse, b)]) := by cases a <;> rfl

theorem mul_eq : a * b = product (a.asFactors ++ [(.direct, b)]) := by cases a <;> rfl

theorem div_eq : a / b = product (a.asFactors ++ [(.inverse, b)]) := by cases a <;> rfl

end Appending

/-! ## One step of a sum or product -/

/-- What a term of this polarity does to the sum before it. -/
def accumulate (p : Polarity) (u w : Float) : Float :=
  match p with
  | .direct => u + w
  | .inverse => u - w

theorem sameNumber_accumulate (p : Polarity) (u w : Float) :
    SameNumber (u + p.unit * w) (accumulate p u w) := by
  cases p with
  | direct => exact (SameNumber.refl u).add (sameNumber_one_mul w)
  | inverse =>
    rw [accumulate, sub_eq_add]
    exact (SameNumber.refl u).add (sameNumber_neg_one_mul w)

theorem accumulate_congr (p : Polarity) {u u' w : Float} (h : SameNumber u u') :
    SameNumber (accumulate p u w) (accumulate p u' w) := by
  cases p with
  | direct => exact h.add (.refl w)
  | inverse => exact h.sub (.refl w)

theorem isFinite_of_multiply? {u w v : Float} {p : Polarity} (h : multiply? u p w = some v) :
    v.isFinite = true :=
  (Option.filter_eq_some_iff.1 h).2

theorem multiply?_direct_iff {u w v : Float} :
    multiply? u .direct w = some v ↔ (u * w).isFinite = true ∧ v = u * w := by
  have product : multiply? u .direct w = (some (u * w)).filter Scalar.isFinite := rfl
  rw [product, Option.filter_eq_some_iff, Option.some_inj]
  constructor
  · rintro ⟨rfl, finite⟩
    exact ⟨finite, rfl⟩
  · rintro ⟨finite, rfl⟩
    exact ⟨rfl, finite⟩

/-- A quotient needs a divisor that is not small; an undefined divisor makes it undefined. -/
theorem multiply?_inverse_iff {u w v : Float} :
    multiply? u .inverse w = some v ↔
      1e-10 ≤ w.abs ∧ (u / w).isFinite = true ∧ v = u / w := by
  have quotient : multiply? u .inverse w =
      (if w.abs < 1e-10 then none else some (u / w)).filter Scalar.isFinite := rfl
  rw [quotient, tolerance_le_abs_iff]
  split
  · rename_i small
    simp [small]
  · rename_i large
    rw [Option.filter_eq_some_iff, Option.some_inj]
    constructor
    · rintro ⟨rfl, finite⟩
      refine ⟨⟨large, Bool.eq_false_iff.2 fun undefined => ?_⟩, finite, rfl⟩
      rw [show Scalar.isFinite (u / w) = (u / w).isFinite from rfl,
        not_isFinite_of_isNaN (isNaN_div undefined)] at finite
      cases finite
    · rintro ⟨-, finite, rfl⟩
      exact ⟨rfl, finite⟩

/-! ## One more member -/

section Values

variable [Transcendental Float] {x : Float}

theorem sumFrom?_append (acc : Float) (ts us : List (Polarity × Formula Float)) :
    sumFrom? x acc (ts ++ us) = (sumFrom? x acc ts).bind fun s => sumFrom? x s us := by
  induction ts generalizing acc with
  | nil => rw [List.nil_append, sumFrom?, Option.bind_some]
  | cons m ts ih =>
    rw [List.cons_append, sumFrom?, sumFrom?]
    cases eval? x m.2 with
    | none => rfl
    | some v => exact ih _

theorem productFrom?_append (acc : Float) (fs gs : List (Polarity × Formula Float)) :
    productFrom? x acc (fs ++ gs) = (productFrom? x acc fs).bind fun s => productFrom? x s gs := by
  induction fs generalizing acc with
  | nil => rw [List.nil_append, productFrom?, Option.bind_some]
  | cons m fs ih =>
    rw [List.cons_append, productFrom?, productFrom?]
    cases eval? x m.2 with
    | none => rfl
    | some v =>
      simp only
      cases multiply? acc m.1 v with
      | none => rfl
      | some next => exact ih next

theorem sumFrom?_single (acc : Float) (p : Polarity) (b : Formula Float) :
    sumFrom? x acc [(p, b)] = (eval? x b).map fun w => acc + p.unit * w := by
  rw [sumFrom?]
  cases eval? x b with
  | none => rfl
  | some w => rfl

theorem productFrom?_single (acc : Float) (p : Polarity) (b : Formula Float) :
    productFrom? x acc [(p, b)] = (eval? x b).bind fun w => multiply? acc p w := by
  rw [productFrom?]
  cases eval? x b with
  | none => rfl
  | some w =>
    simp only [productFrom?, Option.bind_some]
    cases multiply? acc p w with
    | none => rfl
    | some next => rfl

/-- A sum with one more term adds its value to the value so far. -/
theorem eval?_sum_append (ts : List (Polarity × Formula Float)) (p : Polarity)
    (b : Formula Float) :
    eval? x (sum (ts ++ [(p, b)])) =
      (eval? x (sum ts)).bind fun s => (eval? x b).map fun w => s + p.unit * w := by
  simp only [eval?, sumFrom?_append, sumFrom?_single]

/-- A product with one more factor multiplies or divides the value so far. -/
theorem eval?_product_append (fs : List (Polarity × Formula Float)) (p : Polarity)
    (b : Formula Float) :
    eval? x (product (fs ++ [(p, b)])) =
      (eval? x (product fs)).bind fun s => (eval? x b).bind fun w => multiply? s p w := by
  simp only [eval?, productFrom?_append, productFrom?_single]

/-! ## The value of the left operand -/

/-- The terms of the left operand have its value, a zero up to its sign. -/
theorem eval?_sum_asTerms (a : Formula Float) :
    Option.Rel SameNumber (eval? x (sum a.asTerms)) (eval? x a) := by
  have self (o : Option Float) : Option.Rel SameNumber o o := by
    cases o with
    | none => exact .none
    | some v => exact .some (.refl v)
  have single : Option.Rel SameNumber (eval? x (sum [(.direct, a)])) (eval? x a) := by
    rw [eval?, sumFrom?]
    cases eval? x a with
    | none => exact .none
    | some v =>
      simp only [sumFrom?]
      exact .some (((SameNumber.refl 0.0).add (sameNumber_one_mul v)).trans (sameNumber_zero_add v))
  cases a with
  | sum ts => exact self _
  | _ => exact single

/-- A product stays finite. -/
theorem isFinite_of_productFrom? {acc v : Float} {fs : List (Polarity × Formula Float)}
    (finite : acc.isFinite = true) (h : productFrom? x acc fs = some v) : v.isFinite = true := by
  induction fs generalizing acc with
  | nil =>
    rw [productFrom?] at h
    obtain rfl := Option.some.inj h
    exact finite
  | cons m fs ih =>
    rw [productFrom?] at h
    split at h
    · split at h
      · rename_i next kept
        exact ih (isFinite_of_multiply? kept) h
      · cases h
    · cases h

/-- The factors of the left operand have its value, if that is finite, and else none. -/
theorem eval?_product_asFactors (a : Formula Float) :
    eval? x (product a.asFactors) = (eval? x a).filter fun u => u.isFinite := by
  cases a with
  | product fs =>
    cases value : eval? x (product fs) with
    | none => exact value
    | some u =>
      have finite : u.isFinite = true := by
        rw [eval?] at value
        exact isFinite_of_productFrom? (by decide) value
      rw [Option.filter_some, finite]
      exact value
  | _ => exact eval?_product_single _

/-! ## Arithmetic -/

/-- The formula has this value at `x`, up to the sign of a zero and the form of an undefined
number. -/
def HasValue (x : Float) (e : Formula Float) (v : Float) : Prop :=
  ∃ v', eval? x e = some v' ∧ SameNumber v' v

theorem hasValue_append (a b : Formula Float) (p : Polarity) (v : Float) :
    HasValue x (sum (a.asTerms ++ [(p, b)])) v ↔
      ∃ u w, eval? x a = some u ∧ eval? x b = some w ∧ SameNumber (accumulate p u w) v := by
  have left := eval?_sum_asTerms (x := x) a
  rw [HasValue, eval?_sum_append]
  generalize eval? x (sum a.asTerms) = s, eval? x a = u, eval? x b = w at left ⊢
  cases left with
  | none => simp
  | @some s u same =>
    cases w with
    | none => simp
    | some w =>
      have joined : SameNumber (s + p.unit * w) (accumulate p u w) :=
        (sameNumber_accumulate p s w).trans (accumulate_congr p same)
      constructor
      · rintro ⟨v', value, hv'⟩
        obtain rfl := Option.some.inj value
        exact ⟨u, w, rfl, rfl, joined.symm.trans hv'⟩
      · rintro ⟨u', w', hu, hw, hv⟩
        obtain rfl := Option.some.inj hu
        obtain rfl := Option.some.inj hw
        exact ⟨_, rfl, joined.trans hv⟩

theorem hasValue_neg (a : Formula Float) (v : Float) :
    HasValue x (-a) v ↔ ∃ u, eval? x a = some u ∧ SameNumber (-u) v := by
  have negated (u : Float) : SameNumber (0.0 + -1.0 * u) (-u) :=
    (sameNumber_zero_add _).trans (sameNumber_neg_one_mul u)
  have value : eval? x (-a) = (eval? x a).map fun u => 0.0 + -1.0 * u := by
    show eval? x (sum [(.inverse, a)]) = _
    rw [eval?, sumFrom?]
    cases eval? x a with
    | none => rfl
    | some u =>
      simp only [sumFrom?, Option.map_some]
      rfl
  rw [HasValue, value]
  constructor
  · rintro ⟨v', some, hv'⟩
    obtain ⟨u, hu, rfl⟩ := Option.map_eq_some_iff.1 some
    exact ⟨u, hu, (negated u).symm.trans hv'⟩
  · rintro ⟨u, hu, hv⟩
    exact ⟨_, by rw [hu, Option.map_some], (negated u).trans hv⟩

theorem eval?_factor_append (a b : Formula Float) (p : Polarity) (v : Float) :
    eval? x (product (a.asFactors ++ [(p, b)])) = some v ↔
      ∃ u w, eval? x a = some u ∧ eval? x b = some w ∧ u.isFinite = true ∧
        multiply? u p w = some v := by
  rw [eval?_product_append, eval?_product_asFactors]
  constructor
  · intro h
    obtain ⟨u, hu, h⟩ := Option.bind_eq_some_iff.1 h
    obtain ⟨w, hw, h⟩ := Option.bind_eq_some_iff.1 h
    obtain ⟨hu, finite⟩ := Option.filter_eq_some_iff.1 hu
    exact ⟨u, w, hu, hw, finite, h⟩
  · rintro ⟨u, w, hu, hw, finite, h⟩
    rw [hu, Option.filter_some, finite, hw]
    exact h

/-- **The operators denote arithmetic**, whatever shape their left operand has. A sum or difference
has a value when both operands have one, a negative when its operand has one; the value is the sum,
the difference or the negative, where the two zeros count as one and all undefined numbers do. A
product or quotient also needs a finite left operand and a finite result, a quotient moreover a
divisor of at least `1e-10`; its value is exactly the product or quotient. -/
theorem operators_denote_arithmetic (a b : Formula Float) (x v : Float) :
    (HasValue x (a + b) v ↔
      ∃ u w, eval? x a = some u ∧ eval? x b = some w ∧ SameNumber (u + w) v) ∧
    (HasValue x (a - b) v ↔
      ∃ u w, eval? x a = some u ∧ eval? x b = some w ∧ SameNumber (u - w) v) ∧
    (HasValue x (-a) v ↔ ∃ u, eval? x a = some u ∧ SameNumber (-u) v) ∧
    (eval? x (a * b) = some v ↔
      ∃ u w, eval? x a = some u ∧ eval? x b = some w ∧ u.isFinite = true ∧
        (u * w).isFinite = true ∧ v = u * w) ∧
    (eval? x (a / b) = some v ↔
      ∃ u w, eval? x a = some u ∧ eval? x b = some w ∧ u.isFinite = true ∧
        1e-10 ≤ w.abs ∧ (u / w).isFinite = true ∧ v = u / w) := by
  refine ⟨?_, ?_, hasValue_neg a v, ?_, ?_⟩
  · rw [add_eq]
    exact hasValue_append a b .direct v
  · rw [sub_eq]
    exact hasValue_append a b .inverse v
  · rw [mul_eq, eval?_factor_append]
    simp only [multiply?_direct_iff]
  · rw [div_eq, eval?_factor_append]
    simp only [multiply?_inverse_iff]

end Values

end Formula

end CurvePuzzle
