import CurvePuzzle.Proofs.OperatorMeaning
import CurvePuzzle.Proofs.ReadTrees

/-!
# Where a value is undefined

A formula has no value where it cannot be computed, and mostly that is how an undefined float is
kept out: products and powers must be finite, functions must accept their argument. Sums make no
such test. They become infinite when they overflow, or take in the infinite value of a function, and
a sum that meets the opposite infinity hands out an undefined float as its value.

* `Binary64.Opposite`: two infinities of different sign. `Binary64.isNaN_add_iff`: a sum of floats
  is undefined by an undefined operand, or by opposite infinities.
* `Cancels`: somewhere in a sum, or in a sum among its terms, the running sum meets the opposite
  infinity.
* `Library.IsDefined`: a library whose functions are defined wherever they are called.
* `undefined_iff_cancels`: values are undefined where sums cancel, and nowhere else.
  `doubled_number_cancels`: such a formula.
-/

set_option autoImplicit false

namespace CurvePuzzle

open Float.Model Binary64

/-! ## Sums of two floats -/

namespace Binary64

/-- One of the floats is the positive infinity, and the other one the negative. -/
def Opposite (v w : Float) : Prop :=
  code v = infinityCode ∧ code w = infinityCode ∧ isNegative v ≠ isNegative w

/-- A finite number does not move an infinity. -/
theorem code_infinity_add {v w : Float} (hv : code v = infinityCode) (hw : w.isFinite = true) :
    code (v + w) = infinityCode := by
  have stands := stands_decode (signOf (isNegative v)) (Nat.le_refl infinityCode)
  have sum : UnpackedFloat.add Format.binary64 v.toModel.unpack w.toModel.unpack =
      decode (signOf (isNegative v)) infinityCode := by
    rw [unpack_toModel, unpack_toModel, hv, decode_infinity]
    rcases Nat.eq_zero_or_pos (code w) with zero | pos
    · rw [zero]
      rfl
    · rw [decode_finite pos ((isFinite_iff w).1 hw)]
      rfl
  rw [← sum] at stands
  exact stands.code

theorem Opposite.isNaN_add {v w : Float} (h : Opposite v w) : (v + w).isNaN = true := by
  obtain ⟨hv, hw, signs⟩ := h
  have sum : UnpackedFloat.add Format.binary64 v.toModel.unpack w.toModel.unpack =
      .notANumber := by
    rw [unpack_toModel, unpack_toModel, hv, hw, decode_infinity, decode_infinity]
    cases hs : isNegative v <;> cases ht : isNegative w <;> first
      | rfl
      | exact absurd (hs.trans ht.symm) signs
  show (Float.ofModel (Float.Model.pack
    (UnpackedFloat.add _ v.toModel.unpack w.toModel.unpack))).isNaN = true
  rw [sum]
  exact isNaN_pack

/-- **When a sum is undefined**: one of its operands is, or they are opposite infinities. -/
theorem isNaN_add_iff (v w : Float) :
    (v + w).isNaN = true ↔ v.isNaN = true ∨ w.isNaN = true ∨ Opposite v w := by
  constructor
  · intro undefined
    rw [isNaN_iff] at undefined
    by_contra others
    simp only [not_or, isNaN_iff, Nat.not_lt] at others
    obtain ⟨hv, hw, signs⟩ := others
    rcases Nat.lt_or_eq_of_le hv with finiteV | infiniteV
    · have finiteV := (isFinite_iff v).2 finiteV
      rcases Nat.lt_or_eq_of_le hw with finiteW | infiniteW
      · have sum := (sum_add finiteV ((isFinite_iff w).2 finiteW)).defined
        omega
      · have sum := (stands_add_infinity finiteV infiniteW).code
        omega
    · rcases Nat.lt_or_eq_of_le hw with finiteW | infiniteW
      · have sum := code_infinity_add infiniteV ((isFinite_iff w).2 finiteW)
        omega
      · have same : isNegative w = isNegative v := by
          by_contra ne
          exact signs ⟨infiniteV, infiniteW, Ne.symm ne⟩
        have sum := (stands_infinity_add infiniteV hw same).code
        omega
  · rintro (undefined | undefined | opposite)
    · exact isNaN_add_left undefined
    · exact isNaN_add undefined
    · exact opposite.isNaN_add

theorem isNaN_eq_false_of_isFinite {v : Float} (h : v.isFinite = true) : v.isNaN = false := by
  rw [isFinite_iff] at h
  rw [← Bool.not_eq_true, isNaN_iff]
  omega

end Binary64

/-- A term with its sign is added to a running sum. -/
theorem Formula.isNaN_add_unit_mul_iff (s : Float) (p : Polarity) (w : Float) :
    (s + p.unit * w).isNaN = true ↔
      s.isNaN = true ∨ w.isNaN = true ∨ Opposite s (p.signed w) := by
  by_cases undefined : w.isNaN = true
  · exact iff_of_true (isNaN_add (isNaN_mul undefined)) (.inr (.inl undefined))
  · have defined : code w ≤ infinityCode := by
      rw [isNaN_iff] at undefined
      omega
    have signed : p.unit * w = p.signed w := by
      cases p with
      | direct => exact one_mul_eq defined
      | inverse => exact neg_one_mul_eq defined
    have same : (p.signed w).isNaN = w.isNaN := by
      cases p with
      | direct => rfl
      | inverse =>
        show (-w).isNaN = w.isNaN
        rw [Bool.eq_iff_iff, isNaN_iff, isNaN_iff, (stands_neg defined).code]
    rw [signed, isNaN_add_iff, same]

namespace Formula

/-! ## Running sums -/

section Values

variable [Transcendental Float] {x : Float}

/-- **When a running sum ends undefined**: it began so, or one of its terms is undefined, or is the
opposite infinity of what was summed up before it. -/
theorem isNaN_sumFrom?_iff {ts : List (Polarity × Formula Float)} {s v : Float}
    (h : sumFrom? x s ts = some v) :
    v.isNaN = true ↔ s.isNaN = true ∨
      ∃ before m after, ts = before ++ m :: after ∧ ∃ w, eval? x m.2 = some w ∧
        (w.isNaN = true ∨ ∃ u, sumFrom? x s before = some u ∧ Opposite u (m.1.signed w)) := by
  induction ts generalizing s with
  | nil =>
    rw [sumFrom?] at h
    obtain rfl := Option.some.inj h
    simp
  | cons m ts ih =>
    rw [sumFrom?] at h
    split at h
    · rename_i w value
      rw [ih h, isNaN_add_unit_mul_iff]
      constructor
      · rintro ((undefined | undefined | opposite) | ⟨before, n, after, rfl, found⟩)
        · exact .inl undefined
        · exact .inr ⟨[], m, ts, rfl, w, value, .inl undefined⟩
        · exact .inr ⟨[], m, ts, rfl, w, value, .inr ⟨s, by rw [sumFrom?], opposite⟩⟩
        · have onward : sumFrom? x s (m :: before) = sumFrom? x (s + m.1.unit * w) before := by
            rw [sumFrom?, value]
          exact .inr ⟨m :: before, n, after, rfl, by rwa [onward]⟩
      · rintro (undefined | ⟨before, n, after, split, w', value', found⟩)
        · exact .inl (.inl undefined)
        · cases before with
          | nil =>
            obtain ⟨rfl, rfl⟩ := List.cons.inj split
            obtain rfl := Option.some.inj (value.symm.trans value')
            rcases found with undefined | ⟨u, start, opposite⟩
            · exact .inl (.inr (.inl undefined))
            · rw [sumFrom?] at start
              obtain rfl := Option.some.inj start
              exact .inl (.inr (.inr opposite))
          | cons m' before =>
            obtain ⟨rfl, rfl⟩ := List.cons.inj split
            have onward : sumFrom? x s (m :: before) = sumFrom? x (s + m.1.unit * w) before := by
              rw [sumFrom?, value]
            rw [onward] at found
            exact .inr ⟨before, n, after, rfl, w', value', found⟩
    · cases h

/-! ## Formulas -/

/-- In the formula a sum meets the opposite infinity: it is a sum, and the terms before one of them
sum up to the infinity opposite to that term, or this happens within one of its terms. -/
inductive Cancels (x : Float) : Formula Float → Prop where
  | here {before after : List (Polarity × Formula Float)} {p : Polarity} {t : Formula Float}
      {u w : Float} (sum : sumFrom? x 0.0 before = some u) (value : eval? x t = some w)
      (opposite : Opposite u (p.signed w)) : Cancels x (.sum (before ++ (p, t) :: after))
  | within {m : Polarity × Formula Float} {ts : List (Polarity × Formula Float)} (mem : m ∈ ts)
      (part : Cancels x m.2) : Cancels x (.sum ts)

/-- Power and functions whose values are defined, those of the power even finite. -/
structure IsDefined [Transcendental Float] : Prop where
  pow? {u v w : Float} (value : Transcendental.pow? u v = some w) : w.isFinite = true
  value? {f : FunctionName} {v w : Float} (value : Transcendental.value? f v = some w) :
    w.isNaN = false

/-- A formula that is no sum does not cancel. -/
theorem not_cancels {e : Formula Float} (other : ∀ ts, e ≠ sum ts) : ¬Cancels x e := by
  rintro (_ | _)
  · exact other _ rfl
  · exact other _ rfl

theorem isNaN_iff_of_defined {e : Formula Float} {v : Float} (other : ∀ ts, e ≠ sum ts)
    (defined : v.isNaN = false) : v.isNaN = true ↔ Cancels x e :=
  iff_of_false (Bool.eq_false_iff.1 defined) (not_cancels other)

/-- A sum cancels by itself or in one of its terms, and its terms all have values. -/
theorem isNaN_sum_iff {ts : List (Polarity × Formula Float)} {v : Float}
    (terms : ∀ m ∈ ts, ∀ w, eval? x m.2 = some w → (w.isNaN = true ↔ Cancels x m.2))
    (h : eval? x (sum ts) = some v) : v.isNaN = true ↔ Cancels x (sum ts) := by
  rw [eval?] at h
  have start : ¬(0.0 : Float).isNaN = true := by decide
  rw [isNaN_sumFrom?_iff h, or_iff_right start]
  constructor
  · rintro ⟨before, m, after, rfl, w, value, undefined | ⟨u, sum, opposite⟩⟩
    · have mem : m ∈ before ++ m :: after := by simp
      exact .within mem ((terms m mem w value).1 undefined)
    · exact .here sum value opposite
  · intro cancels
    cases cancels with
    | here sum value opposite => exact ⟨_, _, _, rfl, _, value, .inr ⟨_, sum, opposite⟩⟩
    | @within m _ mem part =>
      obtain ⟨before, after, rfl⟩ := List.append_of_mem mem
      cases value : eval? x m.2 with
      | none =>
        rw [sumFrom?_eq_none mem value] at h
        cases h
      | some w => exact ⟨before, m, after, rfl, w, value, .inl ((terms m mem w value).2 part)⟩

/-- By induction on the formula; everything but a sum guards its value, or has it from a guarded
argument. -/
theorem isNaN_eval?_iff (laws : IsDefined) {e : Formula Float}
    (constants : e.HasFiniteConstants) (hx : x.isFinite = true) {v : Float}
    (h : eval? x e = some v) : v.isNaN = true ↔ Cancels x e := by
  induction e using inductionOn generalizing v with
  | const c =>
    rw [eval?] at h
    obtain rfl := Option.some.inj h
    have finite := hasFiniteConstants_const.1 constants
    exact isNaN_iff_of_defined (by simp) (isNaN_eq_false_of_isFinite finite)
  | var =>
    rw [eval?] at h
    obtain rfl := Option.some.inj h
    exact isNaN_iff_of_defined (by simp) (isNaN_eq_false_of_isFinite hx)
  | sum ts ih =>
    refine isNaN_sum_iff (fun m hm w value => ?_) h
    exact ih m hm (hasFiniteConstants_sum.1 constants m hm) value
  | product fs _ =>
    rw [eval?] at h
    have finite := isFinite_of_productFrom? (by decide) h
    exact isNaN_iff_of_defined (by simp) (isNaN_eq_false_of_isFinite finite)
  | pow b e _ _ =>
    rw [eval?] at h
    split at h
    · exact isNaN_iff_of_defined (by simp) (isNaN_eq_false_of_isFinite (laws.pow? h))
    · cases h
  | func f a _ =>
    rw [eval?] at h
    split at h
    · exact isNaN_iff_of_defined (by simp) (laws.value? h)
    · cases h
  | invalid =>
    rw [eval?] at h
    cases h

end Values

end Formula

/-! ## With a library -/

/-- **A library that is defined where it is called**: a function that accepts its argument does not
give an undefined number. Nothing is asked of the power, which is tested. -/
structure Library.IsDefined (l : Library) : Prop where
  apply {f : FunctionName} {v : Float} (accepted : f.accepts v = true) : (l.apply f v).isNaN = false

theorem Library.IsDefined.guarded {l : Library} (laws : l.IsDefined) :
    @Formula.IsDefined l.guarded := by
  let _ : Transcendental Float := l.guarded
  refine ⟨?_, ?_⟩
  · intro u v w value
    have power : (if (l.pow u v).isFinite then some (l.pow u v) else none) = some w := value
    split at power
    · rename_i finite
      obtain rfl := Option.some.inj power
      exact finite
    · cases power
  · intro f v w value
    have result : (if f.accepts v then some (l.apply f v) else none) = some w := value
    split at result
    · rename_i accepted
      obtain rfl := Option.some.inj result
      exact laws.apply accepted
    · cases result

namespace Formula

/-- **A value is undefined exactly where sums cancel.** Take a formula with finite constants at a
finite number. If it has a value there, this is an undefined float when the formula is a sum that
meets the opposite infinity, or has such a sum among its terms, or among their terms, and so on; in
all other cases it is a number or an infinity. In particular no product, power or function hands out
an undefined float, whatever it is made of. -/
theorem undefined_iff_cancels {l : Library} (laws : l.IsDefined) {e : Formula Float}
    (constants : e.HasFiniteConstants) {x : Float} (hx : x.isFinite = true) {v : Float} :
    let _ : Transcendental Float := l.guarded
    eval? x e = some v → (v.isNaN = true ↔ Cancels x e) := by
  intro _ h
  exact isNaN_eval?_iff laws.guarded constants hx h

theorem isDefined_leadingTerms : leadingTerms.IsDefined where
  apply {f v} accepted := by
    have finite : v.isFinite = true := by
      cases f with
      | ln => exact ((Bool.and_eq_true _ _).mp accepted).1
      | _ => exact accepted
    have defined := isNaN_eq_false_of_isFinite finite
    have one : (1.0 : Float).isNaN = false := by decide
    cases f with
    | abs =>
      have small := (isFinite_iff v).1 finite
      have magnitude := (stands_abs (Nat.le_of_lt small)).code
      show v.abs.isNaN = false
      rw [← Bool.not_eq_true, isNaN_iff]
      omega
    | exp => exact one
    | ln =>
      have difference := (sum_sub finite (by decide : (1.0 : Float).isFinite = true)).defined
      show (v - 1.0).isNaN = false
      rw [← Bool.not_eq_true, isNaN_iff]
      omega
    | sin => exact defined
    | cos => exact one
    | tan => exact defined

/-- A term behind the one that cancels does not make the sum defined again: `x+x-(x+x)+cos(x-x)` at
`1e308`. -/
theorem undefined_value_passes_on :
    let _ : Transcendental Float := leadingTerms.guarded
    let doubled : Formula Float := .sum [(.direct, .var), (.direct, .var)]
    let e : Formula Float := .sum [(.direct, .var), (.direct, .var), (.inverse, doubled),
      (.direct, .func .cos (.sum [(.direct, .var), (.inverse, .var)]))]
    leadingTerms.IsDefined ∧ e.HasFiniteConstants ∧ (1e308 : Float).isFinite = true ∧
      (∃ v, eval? 1e308 e = some v ∧ v.isNaN = true) ∧ Cancels 1e308 e := by
  intro _ doubled e
  have constants : e.HasFiniteConstants := fun _ hc => by cases hc
  have finite : (1e308 : Float).isFinite = true := by decide +kernel
  have value : ∃ v, eval? 1e308 e = some v ∧ v.isNaN = true :=
    ⟨0.0 / 0.0, by decide +kernel, by decide⟩
  refine ⟨isDefined_leadingTerms, constants, finite, value, ?_⟩
  obtain ⟨v, some, undefined⟩ := value
  exact (undefined_iff_cancels isDefined_leadingTerms constants finite some).1 undefined

/-- **A number is not kept out of its overflow**: `x+x-(x+x)` has finite constants, and at the
finite number `1e308` its value is no number. -/
theorem doubled_number_cancels :
    let e : Formula Float := .sum [(.direct, .var), (.direct, .var),
      (.inverse, .sum [(.direct, .var), (.direct, .var)])]
    e.HasFiniteConstants ∧ (1e308 : Float).isFinite = true ∧
      ∃ v, eval? 1e308 e = some v ∧ v.isNaN = true := by
  intro e
  have value : eval? 1e308 e = some (0.0 / 0.0) := by decide +kernel
  exact ⟨fun _ hc => (by cases hc), by decide +kernel, _, value, by decide⟩

end Formula

end CurvePuzzle
