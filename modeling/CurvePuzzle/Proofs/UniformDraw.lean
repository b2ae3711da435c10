import CurvePuzzle.Proofs.ConstantTolerance
import CurvePuzzle.Proofs.FloatSpacing
import CurvePuzzle.Random.Source

/-!
# Draws stay in their range

A number is drawn from a range by scaling a share below one with the width of the range and adding the
lower end. The width, its share and the sum are rounded, each of them possibly upwards, so it is not
plain that the result is no larger than the upper end. But the largest share is two floats below one,
and what it takes away is more than the width can have gained.

* `stands_ofBits`: the float of a bit pattern.
* `code_share_le`: the share that a word stands for is at most `lastShare`.
* `units_part_le`: a share of the rounded width, rounded, is no longer than the exact width.
* `RandomSource.uniform_mem`: every draw lies in its range.
-/

set_option autoImplicit false

namespace CurvePuzzle

namespace Binary64

open Float.Model Float.Model.UnpackedFloat

/-! ## Numbers that are not below zero -/

theorem nearestPlace_nonneg {i : Int} (h : 0 ≤ i) : 0 ≤ nearestPlace i := by
  rw [nearestPlace, if_neg (by omega)]
  exact Int.natCast_nonneg _

theorem amount_nonneg_iff {v : Float} : 0 ≤ amount v ↔ 0 ≤ place v := by
  have zero : amount 0.0 = 0 := by decide
  have placeZero : place 0.0 = 0 := by decide
  have least := amount_le_amount_iff (v := 0.0) (w := v)
  rwa [zero, placeZero] at least

theorem isNegative_eq_false {v : Float} (nonneg : 0 ≤ place v) (ne : code v ≠ 0) :
    isNegative v = false := by
  by_contra minus
  rw [place, if_pos (Bool.eq_true_of_not_eq_false minus)] at nonneg
  omega

theorem productCode_zero {k : Nat} (hk : k < infinityCode) :
    productCode 0 k = 0 ∧ productCode k 0 = 0 := by
  have pos := infinityCode_pos
  have none := nearestCode_zero (Nat.two_pow_pos unitExponent)
  rw [productCode_of_lt pos hk, productCode_of_lt hk pos, units_zero, Nat.zero_mul, Nat.mul_zero,
    none]
  exact ⟨rfl, rfl⟩

/-- The product of finite numbers that are not below zero is not below zero. -/
theorem place_mul_nonneg {v w : Float} (hv : v.isFinite = true) (hw : w.isFinite = true)
    (lowV : 0 ≤ place v) (lowW : 0 ≤ place w) : 0 ≤ place (v * w) := by
  rw [isFinite_iff] at hv hw
  have product := stands_mul (Nat.le_of_lt hv) (Nat.le_of_lt hw) (by omega) (by omega)
  rw [product.place]
  by_cases zero : code v = 0 ∨ code w = 0
  · have none : productCode (code v) (code w) = 0 := by
      rcases zero with zero | zero
      · rw [zero]
        exact (productCode_zero hw).1
      · rw [zero]
        exact (productCode_zero hv).2
    rw [none]
    cases signOf (isNegative v) * signOf (isNegative w) <;> exact Int.le_refl 0
  · obtain ⟨neV, neW⟩ := not_or.1 zero
    rw [isNegative_eq_false lowV neV, isNegative_eq_false lowW neW]
    exact Int.natCast_nonneg _

/-! ## Words as shares -/

/-- **The float of a bit pattern** that is a number or infinite. -/
theorem stands_ofBits {b : UInt64} (h : b.toNat % 2 ^ 63 ≤ infinityCode) :
    Stands (Float.ofBits b) (signOf (decide (2 ^ 63 ≤ b.toNat))) (b.toNat % 2 ^ 63) := by
  have stands := stands_decode (signOf (decide (2 ^ 63 ≤ b.toNat))) h
  have unpacked : UnpackedFloat.unpack Format.binary64 b.toBitVec =
      decode (signOf (decide (2 ^ 63 ≤ b.toNat))) (b.toNat % 2 ^ 63) := unpack_eq_decode b.toBitVec
  rw [← unpacked] at stands
  exact stands

theorem code_one_eq : code 1.0 = 1023 * 2 ^ 52 := by decide

/-- The upper bits of a word are the mantissa of a float from one to below two. -/
theorem toNat_mantissa (w : UInt64) :
    ((0x3ff0000000000000 : UInt64) ||| (w >>> 12)).toNat = 1023 * 2 ^ 52 + w.toNat / 2 ^ 12 := by
  have bound : w.toNat < 2 ^ 64 := w.toNat_lt
  have upper : w.toNat / 2 ^ 12 < 2 ^ 52 := by omega
  have one : (0x3ff0000000000000 : UInt64).toNat = 1023 <<< 52 := by decide
  have shifted : (w >>> 12).toNat = w.toNat / 2 ^ 12 := by
    rw [UInt64.toNat_shiftRight, Nat.shiftRight_eq_div_pow]
    rfl
  rw [UInt64.toNat_or, one, shifted, ← Nat.shiftLeft_add_eq_or_of_lt upper, Nat.shiftLeft_eq]

theorem stands_mantissa (w : UInt64) :
    Stands (RandomSource.mantissa w) .positive (code 1.0 + w.toNat / 2 ^ 12) := by
  have bits := toNat_mantissa w
  have bound : w.toNat < 2 ^ 64 := w.toNat_lt
  have inf : infinityCode = 2047 * 2 ^ 52 := rfl
  have stands := stands_ofBits (b := (0x3ff0000000000000 : UInt64) ||| (w >>> 12))
    (by rw [bits]; omega)
  have plus : decide (2 ^ 63 ≤ 1023 * 2 ^ 52 + w.toNat / 2 ^ 12) = false :=
    decide_eq_false (by omega)
  have small : (1023 * 2 ^ 52 + w.toNat / 2 ^ 12) % 2 ^ 63 = code 1.0 + w.toNat / 2 ^ 12 := by
    rw [code_one_eq]
    omega
  rw [bits, plus, small] at stands
  exact stands

/-- The code of the largest share that a draw can take of a width: two floats below one. -/
def lastShare : Nat := code 1.0 - 2

theorem lastShare_lt : lastShare < infinityCode := by decide

theorem two_pow_unitExponent : 2 ^ unitExponent = 2 ^ 52 * 2 ^ 1022 := by
  have exponent : unitExponent = 52 + 1022 := rfl
  rw [exponent, pow_add 2 52 1022]

/-- The largest share, and what it leaves of the whole. -/
theorem units_lastShare : units lastShare + 2 ^ 1022 = 2 ^ unitExponent := by
  have top : mantissa lastShare = 2 ^ 53 - 2 := by decide
  have doubled : 1022 = doublings lastShare + 1 := by decide
  rw [two_pow_unitExponent, units, top, doubled, Nat.pow_succ 2 (doublings lastShare)]
  omega

/-- Above one, the floats are counted by the mantissa. -/
theorem units_code_one_add {k : Nat} (h : k < 2 ^ 52) :
    units (code 1.0 + k) = units (code 1.0) + k * 2 ^ 1022 := by
  have doubled : doublings (code 1.0 + k) = 1022 := by
    rw [code_one_eq, doublings]
    omega
  have doubledOne : doublings (code 1.0) = 1022 := by decide
  have next : mantissa (code 1.0 + k) = mantissa (code 1.0) + k := by
    rw [mantissa, mantissa, doubled, doubledOne, code_one_eq]
    omega
  rw [units, units, next, doubled, doubledOne, Nat.add_mul]

/-- **The share of a word** is neither negative nor larger than the last share below one. -/
theorem code_share_le (w : UInt64) :
    0 ≤ place (RandomSource.mantissa w - 1.0) ∧
      code (RandomSource.mantissa w - 1.0) ≤ lastShare := by
  have stands := stands_mantissa w
  have bound : w.toNat < 2 ^ 64 := w.toNat_lt
  have upper : w.toNat / 2 ^ 12 < 2 ^ 52 := by omega
  have inf : infinityCode = 2047 * 2 ^ 52 := rfl
  have finite : (RandomSource.mantissa w).isFinite = true := by
    rw [isFinite_iff, stands.code, code_one_eq]
    omega
  have one : (1.0 : Float).isFinite = true := by decide
  have sum := sum_sub finite one
  have exact : amount (RandomSource.mantissa w) - amount 1.0 =
      ((w.toNat / 2 ^ 12 * 2 ^ 1022 : Nat) : Int) := by
    have amountOne : amount 1.0 = (units (code 1.0) : Nat) := by rw [amount, one_spec.2.1]; rfl
    rw [amountOne, amount, stands.sign, stands.code, units_code_one_add upper]
    simp only [Sign.apply]
    omega
  have whole : (w.toNat / 2 ^ 12 * 2 ^ 1022) ≤ units lastShare := by
    have last := units_lastShare
    have scaled : (w.toNat / 2 ^ 12 + 1) * 2 ^ 1022 ≤ 2 ^ 52 * 2 ^ 1022 :=
      Nat.mul_le_mul_right _ upper
    have power := two_pow_unitExponent
    rw [Nat.add_mul, Nat.one_mul] at scaled
    omega
  have rise := nearestCode_mono (a := w.toNat / 2 ^ 12 * 2 ^ 1022) (c := units lastShare)
    Nat.one_pos Nat.one_pos (by omega)
  rw [nearestCode_units] at rise
  constructor
  · rw [sum.place, exact]
    exact nearestPlace_nonneg (Int.natCast_nonneg _)
  · rw [sum.code, exact, Int.natAbs_natCast]
    exact Nat.le_trans (Nat.min_le_right _ _) rise

/-! ## A share of a width -/

/-- A share of a number is rounded to that number at most. -/
theorem nearestCode_share_le (s : Nat) :
    nearestCode (units lastShare * units s) (2 ^ unitExponent) ≤ s := by
  have last := units_lastShare
  have below : units lastShare * units s ≤ 2 ^ unitExponent * units s :=
    Nat.mul_le_mul_right _ (by omega)
  have rise := nearestCode_mono (a := units lastShare * units s) (c := units s)
    (Nat.two_pow_pos unitExponent) Nat.one_pos (by
      rw [Nat.mul_one, Nat.mul_comm (units s)]
      exact below)
  rwa [nearestCode_units] at rise

/-- The largest share of a number with a full mantissa is rounded to the float below it at most. -/
theorem nearestCode_share_le_pred {n : Nat} (full : 2 ^ 52 ≤ mantissa (n + 1)) :
    nearestCode (units lastShare * units (n + 1)) (2 ^ unitExponent) ≤ n := by
  have last := units_lastShare
  have wide : 2 ^ 52 * spacing n ≤ units (n + 1) := by
    have rise := spacing_le_spacing (Nat.le_add_right n 1)
    calc 2 ^ 52 * spacing n ≤ mantissa (n + 1) * spacing (n + 1) := Nat.mul_le_mul full rise
      _ = units (n + 1) := rfl
  -- what the share leaves of the number is as much as the step down to the float below
  have left : 2 ^ unitExponent * spacing n ≤ 2 ^ 1022 * units (n + 1) := by
    rw [two_pow_unitExponent, Nat.mul_comm (2 ^ 52), Nat.mul_assoc]
    exact Nat.mul_le_mul_left _ wide
  have whole : units lastShare * units (n + 1) + 2 ^ 1022 * units (n + 1) =
      2 ^ unitExponent * units n + 2 ^ unitExponent * spacing n := by
    rw [← Nat.add_mul, last, units_succ, Nat.mul_add]
  have rise := nearestCode_mono (a := units lastShare * units (n + 1)) (c := units n)
    (Nat.two_pow_pos unitExponent) Nat.one_pos (by
      rw [Nat.mul_one, Nat.mul_comm (units n)]
      omega)
  rwa [nearestCode_units] at rise

/-- **The share of a rounded width is no longer than the exact width**: rounding the width adds half a
spacing at most, and the share takes more than that away. -/
theorem units_part_le (a : Nat) :
    units (nearestCode (units lastShare * units (nearestCode a 1)) (2 ^ unitExponent)) ≤ a := by
  obtain ⟨rounded, -⟩ := units_nearestCode_bounds a
  generalize nearestCode a 1 = s at *
  rcases (mantissa_bounds s).2 with fine | full
  · have one : spacing s = 1 := by rw [spacing, fine]; rfl
    have part := units_le_units (nearestCode_share_le s)
    omega
  · cases s with
    | zero => exact absurd full (by decide)
    | succ n =>
      have part := units_le_units (nearestCode_share_le_pred full)
      have step := units_succ n
      have twice : spacing (n + 1) ≤ 2 * spacing n := by
        have next : doublings (n + 1) ≤ doublings n + 1 := by unfold doublings; omega
        calc spacing (n + 1) ≤ 2 ^ (doublings n + 1) := Nat.pow_le_pow_right (by decide) next
          _ = 2 * spacing n := by rw [Nat.pow_succ, Nat.mul_comm]; rfl
      omega

/-- The code of a share of a finite width, by that of the largest share. -/
theorem code_part_le {u width : Float} (below : code u ≤ lastShare)
    (finite : width.isFinite = true) :
    code (u * width) ≤ nearestCode (units lastShare * units (code width)) (2 ^ unitExponent) := by
  have smallU := Nat.lt_of_le_of_lt below lastShare_lt
  have small := (isFinite_iff width).1 finite
  have product := stands_mul (Nat.le_of_lt smallU) (Nat.le_of_lt small) (by omega) (by omega)
  have rise := nearestCode_mono (a := units (code u) * units (code width))
    (c := units lastShare * units (code width)) (Nat.two_pow_pos unitExponent)
    (Nat.two_pow_pos unitExponent)
    (Nat.mul_le_mul_right _ (Nat.mul_le_mul_right _ (units_le_units below)))
  rw [product.code, productCode_of_lt smallU small]
  exact Nat.le_trans (Nat.min_le_right _ _) rise

/-- A share of a finite width: not negative, and no longer than the exact width. -/
theorem amount_part_bounds {u low high : Float} (share : 0 ≤ place u) (below : code u ≤ lastShare)
    (order : low ≤ high) (width : (high - low).isFinite = true) :
    (u * (high - low)).isFinite = true ∧ 0 ≤ amount (u * (high - low)) ∧
      amount (u * (high - low)) ≤ amount high - amount low := by
  obtain ⟨finiteHigh, finiteLow⟩ := isFinite_of_sub width
  have ordered := amount_le_amount_iff.2 ((le_iff _ _).1 order).2.2
  have difference := sum_sub finiteHigh finiteLow
  have finiteU : u.isFinite = true := (isFinite_iff u).2 (Nat.lt_of_le_of_lt below lastShare_lt)
  have small := (isFinite_iff _).1 width
  have rounded : code (high - low) = nearestCode (amount high - amount low).natAbs 1 := by
    have code := difference.code
    omega
  have part := code_part_le below width
  have whole := Nat.le_trans part (nearestCode_share_le _)
  have finite : (u * (high - low)).isFinite = true := (isFinite_iff _).2 (by omega)
  have nonneg : 0 ≤ amount (u * (high - low)) := by
    have lowWidth : 0 ≤ place (high - low) := by
      rw [difference.place]
      exact nearestPlace_nonneg (by omega)
    exact amount_nonneg_iff.2 (place_mul_nonneg finiteU width share lowWidth)
  have short : units (code (u * (high - low))) ≤ (amount high - amount low).natAbs := by
    rw [rounded] at part
    exact Nat.le_trans (units_le_units part) (units_part_le _)
  have magnitude : (amount (u * (high - low))).natAbs = units (code (u * (high - low))) :=
    natAbs_apply _ _
  exact ⟨finite, nonneg, by omega⟩

end Binary64

open Binary64

namespace RandomSource

/-- **Every draw lies in its range**, whatever the word, if the range is in order and of finite
width. -/
theorem uniform_mem {low high : Float} (order : low ≤ high) (width : (high - low).isFinite = true)
    (s : RandomSource) : low ≤ (s.uniform low high).1 ∧ (s.uniform low high).1 ≤ high := by
  obtain ⟨share, below⟩ := code_share_le s.next.1
  obtain ⟨finiteHigh, finiteLow⟩ := isFinite_of_sub width
  obtain ⟨finite, nonneg, short⟩ := amount_part_bounds share below order width
  have sum := sum_add finite finiteLow
  have definedLow := Nat.le_of_lt ((isFinite_iff low).1 finiteLow)
  have definedHigh := Nat.le_of_lt ((isFinite_iff high).1 finiteHigh)
  have above := nearestPlace_mono (i := amount low)
    (j := amount ((mantissa s.next.1 - 1.0) * (high - low)) + amount low) (by omega)
  have within := nearestPlace_mono (j := amount high)
    (i := amount ((mantissa s.next.1 - 1.0) * (high - low)) + amount low) (by omega)
  rw [nearestPlace_amount definedLow, ← sum.place] at above
  rw [nearestPlace_amount definedHigh, ← sum.place] at within
  exact ⟨(le_iff _ _).2 ⟨definedLow, sum.defined, above⟩,
    (le_iff _ _).2 ⟨sum.defined, definedHigh, within⟩⟩

end RandomSource

end CurvePuzzle
