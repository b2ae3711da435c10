import CurvePuzzle.Proofs.FloatRounding

/-!
# The interval of a code

The quotients that are rounded to a code lie in an interval around its magnitude: half a unit to
each side, but only a quarter of one downwards where the unit changes.

* `Reached n a b`: the quotient lies in the interval of the code `n`, or at an end of it when the
  mantissa is even.
* `nearestCode_eq`: such a quotient is rounded to `n`.
-/

set_option autoImplicit false

namespace CurvePuzzle.Binary64

open Decimal (roundHalfEven)

/-- Does the code stand for a power of two, below which floats are twice as dense? -/
def IsBoundary (n : Nat) : Prop := mantissa n = 2 ^ 52 ∧ 0 < doublings n

instance (n : Nat) : Decidable (IsBoundary n) := inferInstanceAs (Decidable (_ ∧ _))

/-- How many quarters of the unit of a code its interval reaches down. -/
def quartersBelow (n : Nat) : Nat := if IsBoundary n then 1 else 2

/-- Does the quotient lie where no code is nearer? The interval is measured in quarters of the unit
of the code, and has its ends when the mantissa is even. -/
structure Reached (n a b : Nat) : Prop where
  low : (4 * mantissa n - quartersBelow n) * (b * 2 ^ doublings n) ≤ 4 * a
  high : 4 * a ≤ (4 * mantissa n + 2) * (b * 2 ^ doublings n)
  inner : mantissa n % 2 = 1 →
    (4 * mantissa n - quartersBelow n) * (b * 2 ^ doublings n) < 4 * a ∧
      4 * a < (4 * mantissa n + 2) * (b * 2 ^ doublings n)

theorem fit_le_doublings {n a b : Nat} (hb : 0 < b) (h : Reached n a b) :
    fit a b ≤ doublings n := by
  rw [fit_le_iff, Nat.div_lt_iff_lt_mul hb, Nat.pow_add, Nat.mul_right_comm, Nat.mul_assoc]
  have bits := (mantissa_bounds n).1
  have pos : 0 < b * 2 ^ doublings n := Nat.mul_pos hb (Nat.two_pow_pos _)
  have high := h.high
  have room : (4 * mantissa n + 2) * (b * 2 ^ doublings n) <
      4 * 2 ^ 53 * (b * 2 ^ doublings n) := Nat.mul_lt_mul_of_pos_right (by omega) pos
  rw [Nat.mul_assoc 4] at room
  omega

/-- Within half a unit of a code nothing else is nearest, up to ties. -/
theorem nearestCode_eq_of_fit {n a b : Nat} (hb : 0 < b) (h : Reached n a b)
    (fits : fit a b = doublings n) : nearestCode a b = n := by
  have pos : 0 < b * 2 ^ doublings n := Nat.mul_pos hb (Nat.two_pow_pos _)
  obtain ⟨low, high, inner⟩ := h
  have below : quartersBelow n ≤ 2 := by
    unfold quartersBelow
    split <;> omega
  have near : roundHalfEven ⟨a, b * 2 ^ doublings n⟩ = mantissa n := by
    generalize b * 2 ^ doublings n = u at *
    rw [Nat.sub_mul, Nat.mul_assoc] at low inner
    rw [Nat.add_mul, Nat.mul_assoc] at high inner
    have quarters : quartersBelow n * u ≤ 2 * u := Nat.mul_le_mul_right u below
    apply roundHalfEven_eq pos <;> omega
  unfold nearestCode
  rw [fits, near, code_parts]

/-- Just below a power of two the unit is half as large, and rounding carries into the power. -/
theorem nearestCode_eq_of_boundary {n a b : Nat} (hb : 0 < b) (h : Reached n a b)
    (boundary : IsBoundary n) (fits : fit a b < doublings n) : nearestCode a b = n := by
  have carry (k : Nat) : k * 2 ^ 52 + 2 ^ 53 = (k + 1) * 2 ^ 52 + 2 ^ 52 := by omega
  obtain ⟨top, some⟩ := boundary
  have parts := code_parts n
  have quarters : quartersBelow n = 1 := if_pos ⟨top, some⟩
  obtain ⟨d, hd⟩ : ∃ d, doublings n = d + 1 := ⟨doublings n - 1, by omega⟩
  have pos : 0 < b * 2 ^ d := Nat.mul_pos hb (Nat.two_pow_pos _)
  have low := h.low
  have double : b * 2 ^ (d + 1) = 2 * (b * 2 ^ d) := by
    rw [Nat.pow_succ, ← Nat.mul_assoc, Nat.mul_comm]
  rw [quarters, top, hd, double] at low
  -- the quotient still has the bits for the exponent below
  have above : d ≤ fit a b := by
    rcases Nat.eq_zero_or_pos d with zero | some
    · omega
    · have reach : 2 ^ (53 + (d - 1)) ≤ a / b := by
        rw [Nat.le_div_iff_mul_le hb]
        have step : 53 + (d - 1) = 52 + d := by omega
        rw [step, Nat.pow_add, Nat.mul_assoc, Nat.mul_comm (2 ^ d) b]
        omega
      have := lt_fit_iff.2 reach
      omega
  have same : fit a b = d := by omega
  have less : a < 2 ^ 53 * (b * 2 ^ d) := by
    have := fit_le_iff.1 (Nat.le_of_eq same)
    rw [Nat.div_lt_iff_lt_mul hb, Nat.pow_add, Nat.mul_assoc, Nat.mul_comm (2 ^ d) b] at this
    exact this
  have near : roundHalfEven ⟨a, b * 2 ^ d⟩ = 2 ^ 53 := by
    generalize b * 2 ^ d = u at *
    apply roundHalfEven_eq pos <;> omega
  rw [hd, top] at parts
  rw [nearestCode, same, near, carry d, parts]

/-- Above a power of two the whole interval has the unit of the code. -/
theorem doublings_le_fit {n a b : Nat} (hb : 0 < b) (h : Reached n a b)
    (inside : ¬IsBoundary n) : doublings n ≤ fit a b := by
  rcases Nat.eq_zero_or_pos (doublings n) with zero | some
  · omega
  have low := h.low
  have top := (mantissa_bounds n).2
  have quarters : quartersBelow n = 2 := if_neg inside
  have more : 2 ^ 52 < mantissa n := by
    unfold IsBoundary at inside
    omega
  have wide : 4 * 2 ^ 52 * (b * 2 ^ doublings n) ≤ 4 * a :=
    Nat.le_trans (Nat.mul_le_mul_right _ (by omega)) low
  have reach : 2 ^ (53 + (doublings n - 1)) ≤ a / b := by
    rw [Nat.le_div_iff_mul_le hb]
    have step : 53 + (doublings n - 1) = 52 + doublings n := by omega
    rw [step, Nat.pow_add, Nat.mul_assoc, Nat.mul_comm (2 ^ doublings n) b]
    rw [Nat.mul_assoc 4] at wide
    omega
  have := lt_fit_iff.2 reach
  omega

/-- **A quotient in the interval of a code** is rounded to it. -/
theorem nearestCode_eq {n a b : Nat} (hb : 0 < b) (h : Reached n a b) : nearestCode a b = n := by
  have le := fit_le_doublings hb h
  by_cases boundary : IsBoundary n
  · rcases Nat.lt_or_eq_of_le le with less | same
    · exact nearestCode_eq_of_boundary hb h boundary less
    · exact nearestCode_eq_of_fit hb h same
  · exact nearestCode_eq_of_fit hb h (Nat.le_antisymm le (doublings_le_fit hb h boundary))

end CurvePuzzle.Binary64
