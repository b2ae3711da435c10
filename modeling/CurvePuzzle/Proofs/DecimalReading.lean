import CurvePuzzle.Proofs.FloatArithmetic
import CurvePuzzle.Proofs.Numeral

/-!
# Reading decimal numbers

A numeral is read as the float nearest to its decimal value, whichever way the reading takes: small
numbers are divided by an exact power of ten, all others are rounded once from exact integers.

* `decimalCode`: the code nearest to a decimal number.
* `stands_ofScientific`: digits, some of them behind the point, are read as that code.
* `Numeral.stands_value`: so is every numeral.
-/

set_option autoImplicit false

namespace CurvePuzzle

namespace Binary64

open Float.Model Float.Model.UnpackedFloat
open Decimal (roundHalfEven)

/-- The code nearest to `m / 10 ^ f`. -/
def decimalCode (m f : Nat) : Nat :=
  min infinityCode (nearestCode (m * 2 ^ unitExponent) (10 ^ f))

theorem decimalCode_zero (f : Nat) : decimalCode 0 f = 0 := by
  unfold decimalCode
  rw [Nat.zero_mul, nearestCode_zero (Nat.pow_pos (by decide)), Nat.min_zero]

theorem decimalCode_le (m f : Nat) : decimalCode m f ≤ infinityCode := Nat.min_le_left _ _

theorem decimalCode_lt (m f : Nat) : decimalCode m f < 2 ^ 63 :=
  Nat.lt_of_le_of_lt (decimalCode_le m f) (by decide)

/-- A number with far more zeros behind the point than it has digits vanishes. -/
theorem decimalCode_tiny {m f : Nat} (h : 2 ^ 11 + m.log2 < f) : decimalCode m f = 0 := by
  have digits : m < 2 ^ (m.log2 + 1) := Nat.lt_log2_self
  have third : m * 2 ^ unitExponent * 3 ≤ 1 * 10 ^ f := by
    calc m * 2 ^ unitExponent * 3
        ≤ 2 ^ (m.log2 + 1) * 2 ^ unitExponent * 2 ^ 2 :=
          Nat.mul_le_mul (Nat.mul_le_mul_right _ (Nat.le_of_lt digits)) (by decide)
      _ = 2 ^ (m.log2 + 1 + unitExponent + 2) := by rw [← Nat.pow_add, ← Nat.pow_add]
      _ ≤ 2 ^ f := Nat.pow_le_pow_right (by decide) (by unfold unitExponent; omega)
      _ ≤ 1 * 10 ^ f := by
          rw [Nat.one_mul]
          exact Nat.pow_le_pow_left (by decide) f
  have small := nearestCode_mono (Nat.pow_pos (by decide)) (by decide) third
  have none : nearestCode 1 3 = 0 := by decide
  rw [none] at small
  unfold decimalCode
  omega

/-! ## Through the model -/

theorem mul_pow_mul_pow {i j k : Nat} (m : Nat) (h : i + j = k) :
    m * 2 ^ i * 2 ^ j = m * 2 ^ k := by
  rw [Nat.mul_assoc, ← Nat.pow_add, h]

/-- **Reading in the model**: digits behind the point are divided off exactly before rounding. -/
theorem stands_model_ofScientific (m f : Nat) :
    Stands (.ofModel (Float.Model.ofScientific m (-(f : Int)))) .positive (decimalCode m f) := by
  have len : Format.binary64.mantissaBits = 53 := rfl
  have bits : Format.binary64.exponentBits = 11 := rfl
  refine stands_of_pack (decimalCode_lt m f) ?_
  unfold UnpackedFloat.ofScientific
  rcases Nat.eq_zero_or_pos m with rfl | pos
  · rw [dif_pos rfl, toNat_pack_zero, decimalCode_zero]
  rw [dif_neg (Nat.ne_of_gt pos), bits, if_neg (by omega)]
  by_cases tiny : 2 ^ 11 + m.log2 < f
  · rw [if_pos (by omega), toNat_pack_zero, decimalCode_tiny tiny]
  rw [if_neg (by omega)]
  rcases Nat.eq_zero_or_pos f with rfl | fraction
  · rw [if_pos (by decide)]
    have wide : 53 ≤ (m * 2 ^ 53).log2 :=
      (Nat.le_log2 (Nat.ne_of_gt (Nat.mul_pos pos (by decide)))).2 (Nat.le_mul_of_pos_left _ pos)
    have rounded := toNat_pack_nearestCode .positive (e := -53) Nat.one_pos
      (handed_exact (m * 2 ^ 53)) (by omega)
    have up : 53 + (-53 + 1074 : Int).toNat = unitExponent := rfl
    have down : (-(-53 + 1074) : Int).toNat = 0 := rfl
    rw [mul_pow_mul_pow m up, down] at rounded
    have shifted : m <<< 53 * 10 ^ (-((0 : Nat) : Int)).toNat = m * 2 ^ 53 := by
      rw [Nat.shiftLeft_eq]
      exact Nat.mul_one _
    simp only [len, UnpackedFloat.mul, shifted]
    exact rounded
  · rw [if_neg (by omega)]
    have divided := toNat_pack_div .positive .positive (e := 0) (f := 0) pos
      (Nat.pow_pos (n := (- -(f : Int)).toNat) (by decide : 0 < 10))
    have field : (- -(f : Int)).toNat = f := by omega
    have up : (0 - 0 + 1074 : Int).toNat = unitExponent := rfl
    have down : (-(0 - 0 + 1074) : Int).toNat = 0 := rfl
    rw [up, down, Nat.pow_zero, Nat.mul_one] at divided
    refine divided.trans ?_
    rw [field, decimalCode]
    rfl

/-! ## Small numbers -/

/-- A number of at most 53 bits, doubled any number of times, is a code's exact magnitude. -/
theorem units_nearestCode {m : Nat} (k : Nat) (small : m < 2 ^ 53) :
    units (nearestCode (m * 2 ^ k) 1) = m * 2 ^ k ∧
      nearestCode (m * 2 ^ k) 1 < k * 2 ^ 52 + 2 ^ 53 := by
  have fits : fit (m * 2 ^ k) 1 ≤ k := by
    rw [fit_le_iff, Nat.div_one, Nat.pow_add]
    exact Nat.mul_lt_mul_of_pos_right small (Nat.two_pow_pos k)
  have top := (fitted_bounds (m * 2 ^ k) (b := 1)).2
  have bits := fit_le_iff.1 (Nat.le_refl (fit (m * 2 ^ k) 1))
  unfold nearestCode
  generalize fit (m * 2 ^ k) 1 = t at *
  have split : m * 2 ^ k = m * 2 ^ (k - t) * 2 ^ t := by
    rw [Nat.mul_assoc, ← Nat.pow_add, Nat.sub_add_cancel fits]
  rw [split] at top bits ⊢
  rw [Nat.one_mul, roundHalfEven_natCast _ (Nat.two_pow_pos t)] at top ⊢
  rw [Nat.div_one, Nat.pow_add] at bits
  have bits : m * 2 ^ (k - t) < 2 ^ 53 := Nat.lt_of_mul_lt_mul_right bits
  generalize m * 2 ^ (k - t) = r at *
  have steps : doublings (t * 2 ^ 52 + r) = t := by
    unfold doublings
    omega
  refine ⟨?_, ?_⟩
  · unfold units mantissa
    rw [steps, Nat.add_sub_cancel_left]
  · have : t * 2 ^ 52 ≤ k * 2 ^ 52 := Nat.mul_le_mul_right _ fits
    omega

theorem nearestCode_lt_infinityCode {m : Nat} (small : m < 2 ^ 53) :
    nearestCode (m * 2 ^ unitExponent) 1 < infinityCode :=
  Nat.lt_of_lt_of_le (units_nearestCode unitExponent small).2 (by decide)

theorem stands_toFloat {m : Nat} (small : m < 2 ^ 53) :
    Stands m.toUInt64.toFloat .positive (nearestCode (m * 2 ^ unitExponent) 1) := by
  have finite := nearestCode_lt_infinityCode small
  refine stands_of_pack (Nat.lt_trans finite (by decide)) ?_
  have same : m.toUInt64.toNat = m := by
    rw [Nat.toUInt64, UInt64.toNat_ofNat']
    omega
  unfold UnpackedFloat.ofUInt64 UnpackedFloat.ofNat UnpackedFloat.ofInt
  rw [same]
  rcases Nat.eq_zero_or_pos m with rfl | pos
  · rw [Nat.zero_mul, nearestCode_zero Nat.one_pos]
    exact toNat_pack_zero _
  · have bits := toNat_pack_normalize (i := m) (e := 0) .positive (by omega) (by decide)
    have sign : signOfInt m = .positive := (signOfInt_spec m).2 (by omega)
    have up : (0 + 1074 : Int).toNat = unitExponent := rfl
    rw [sign, Int.natAbs_natCast, up] at bits
    exact bits.trans (congrArg _ (Nat.min_eq_right (Nat.le_of_lt finite)))

/-- Is this float the power of ten? -/
structure IsPowerOfTen (f : Nat) (v : Float) : Prop where
  positive : isNegative v = false
  pos : 0 < code v
  finite : code v < infinityCode
  exact : units (code v) = 10 ^ f * 2 ^ unitExponent

instance (f : Nat) (v : Float) : Decidable (IsPowerOfTen f v) :=
  decidable_of_iff
    (isNegative v = false ∧ 0 < code v ∧ code v < infinityCode ∧
      units (code v) = 10 ^ f * 2 ^ unitExponent)
    ⟨fun ⟨a, b, c, d⟩ => ⟨a, b, c, d⟩, fun ⟨a, b, c, d⟩ => ⟨a, b, c, d⟩⟩

theorem isPowerOfTen_table (f : Nat) (h : f < Float.exactlyRepresentablePowersOfTen.size) :
    IsPowerOfTen f Float.exactlyRepresentablePowersOfTen[f] := by
  revert f
  decide +kernel

/-- **Reading a number with digits behind the point** gives the nearest float. -/
theorem stands_ofScientific (m f : Nat) :
    Stands (Float.ofScientific m true f) .positive (decimalCode m f) := by
  unfold Float.ofScientific
  split
  · rename_i small
    have power := isPowerOfTen_table f (Nat.lt_succ_of_le small.2)
    have numerator := stands_toFloat small.1
    have below := nearestCode_lt_infinityCode small.1
    have quotient := stands_div (by rw [numerator.code]; exact Nat.le_of_lt below) power.pos
      power.finite
    rw [numerator.sign, numerator.code, power.positive, quotientCode, if_neg (Nat.ne_of_lt below),
      (units_nearestCode unitExponent small.1).1, power.exact,
      nearestCode_mul (Nat.pow_pos (by decide)) (Nat.two_pow_pos _)] at quotient
    exact quotient
  · have negated : (if true = true then Int.negOfNat f else Int.ofNat f) = -(f : Int) := by
      rw [if_pos rfl, Int.negOfNat_eq]
      rfl
    rw [negated]
    exact stands_model_ofScientific m f

theorem stands_ofScientific_zero (m : Nat) :
    Stands (Float.ofScientific m false 0) .positive (decimalCode m 0) := by
  unfold Float.ofScientific
  split
  · rename_i small
    have power := isPowerOfTen_table 0 (by decide)
    have numerator := stands_toFloat small.1
    have below := nearestCode_lt_infinityCode small.1
    have product := stands_mul (by rw [numerator.code]; exact Nat.le_of_lt below)
      (Nat.le_of_lt power.finite) (fun _ => power.pos)
      (fun e => absurd e (Nat.ne_of_lt power.finite))
    have plain : ¬(nearestCode (m * 2 ^ unitExponent) 1 = infinityCode ∨
        code Float.exactlyRepresentablePowersOfTen[0] = infinityCode) := by
      have := power.finite
      omega
    have scaled : m * 2 ^ unitExponent * (10 ^ 0 * 2 ^ unitExponent) =
        m * 2 ^ unitExponent * 2 ^ unitExponent := by
      rw [Nat.pow_zero, Nat.one_mul]
    have rounded := nearestCode_mul (a := m * 2 ^ unitExponent) Nat.one_pos
      (Nat.two_pow_pos unitExponent)
    rw [Nat.one_mul] at rounded
    rw [numerator.sign, numerator.code, power.positive, productCode, if_neg plain,
      (units_nearestCode unitExponent small.1).1, power.exact, scaled, rounded] at product
    exact product
  · exact stands_model_ofScientific m 0

end Binary64

/-! ## Numerals -/

namespace Numeral

/-- The digits of a numeral, without the point. -/
def digits (n : Numeral) : List Char := n.whole ++ n.fraction.getD []

/-- How many digits of a numeral stand behind the point. -/
def places (n : Numeral) : Nat := (n.fraction.getD []).length

/-- **A numeral is read as the float nearest to it.** -/
theorem stands_value (n : Numeral) :
    Binary64.Stands n.value .positive
      (Binary64.decimalCode (Decimal.natOfDigits n.digits) n.places) := by
  have few : n.places ≤ n.digits.length := by
    unfold places digits
    rw [List.length_append]
    omega
  have uncut : max (-(n.digits.length : Int) - 400) (min (0 - (n.places : Int)) 400) =
      -(n.places : Int) := by omega
  show Binary64.Stands (Decimal.ofDigits n.digits (0 - (n.places : Int))) _ _
  unfold Decimal.ofDigits
  simp only [uncut, Int.natAbs_neg, Int.natAbs_natCast]
  rcases Nat.eq_zero_or_pos n.places with none | some
  · rw [none]
    exact Binary64.stands_ofScientific_zero _
  · have negative : decide (-(n.places : Int) < 0) = true := decide_eq_true (by omega)
    rw [negative]
    exact Binary64.stands_ofScientific _ _

end Numeral

end CurvePuzzle
