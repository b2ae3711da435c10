import CurvePuzzle.Proofs.DecimalReading
import CurvePuzzle.Proofs.RoundingInterval
import CurvePuzzle.Proofs.ShortestDigits
import CurvePuzzle.Decimal.Text

/-!
# Numbers are read back

The text of a finite float is a numeral behind at most one sign, and reads as that float.

* `Binary.ofFloat?_eq`: the parts of a float, by its code.
* `reached_of_reaches`: the interval of the digit search is the interval of rounding.
* `Digits.exists_numeral`: digits are laid out as a numeral of their value.
* `Numeral.exists_writes`: so every finite float is written as a numeral that reads as it.
-/

set_option autoImplicit false

namespace CurvePuzzle

open Binary64

/-! ## Parts of floats -/

namespace Binary64

/-- The parts of the float with a sign bit and a code. -/
def parts (negative : Bool) (n : Nat) : Decimal.Binary :=
  ⟨negative, mantissa n, (doublings n : Int) - 1074⟩

theorem ofFloat?_eq {v : Float} (h : v.isFinite = true) :
    Decimal.Binary.ofFloat? v = some (parts (isNegative v) (code v)) := by
  have finite := (isFinite_iff v).1 h
  have bits := toBits_eq v
  have small := code_lt v
  have implicit : Decimal.Binary.implicitBit = 2 ^ 52 := rfl
  have top : Nat.pow 2 63 = 2 ^ 63 := rfl
  have sign : (v.toBits.toNat / 2 ^ 63 == 1) = isNegative v := by
    rw [bits]
    cases isNegative v with
    | false => exact beq_eq_false_iff_ne.2 (by simp only [Bool.false_eq_true, if_false]; omega)
    | true => exact beq_iff_eq.2 (by simp only [if_true]; omega)
  have field : v.toBits.toNat / 2 ^ 52 % 2048 = code v / 2 ^ 52 := by
    rw [bits]
    split <;> omega
  have fraction : v.toBits.toNat % 2 ^ 52 = code v % 2 ^ 52 := by
    rw [bits]
    split <;> omega
  have ordinary : (code v / 2 ^ 52 == 2047) = false := by
    rw [beq_eq_false_iff_ne]
    unfold infinityCode at finite
    omega
  unfold Decimal.Binary.ofFloat? Decimal.Binary.ofBits?
  simp only [implicit, top, sign, field, fraction, ordinary, Bool.false_eq_true, if_false]
  unfold parts mantissa doublings
  split
  · rename_i zero
    rw [beq_iff_eq] at zero
    rw [zero, Nat.mod_eq_of_lt (by omega)]
    rfl
  · rename_i some
    rw [beq_iff_eq] at some
    congr 2 <;> omega

theorem isBoundary_parts (negative : Bool) (n : Nat) :
    (parts negative n).isBoundary = decide (IsBoundary n) := by
  have implicit : Decimal.Binary.implicitBit = 2 ^ 52 := rfl
  have doubled : -1074 < (doublings n : Int) - 1074 ↔ 0 < doublings n := by omega
  rw [Bool.eq_iff_iff, decide_eq_true_iff]
  unfold Decimal.Binary.isBoundary parts IsBoundary
  simp only [implicit, Bool.and_eq_true, beq_iff_eq, decide_eq_true_eq, doubled]

theorem quartersBelow_parts (negative : Bool) (n : Nat) :
    (parts negative n).quartersBelow = quartersBelow n := by
  unfold Decimal.Binary.quartersBelow quartersBelow
  rw [isBoundary_parts]
  simp only [decide_eq_true_eq]

/-- Quarters of the last place of a float and a decimal number have a common measure. -/
theorem exists_measure (n m f : ℕ) :
    ∃ c : ℚ, 0 < c ∧
      (∀ k : ℕ, k * (2 : ℚ) ^ ((doublings n : ℤ) - 1074 - 2) =
        ((k * (10 ^ f * 2 ^ doublings n) : ℕ) : ℚ) * c) ∧
      (m : ℚ) / 10 ^ f = ((4 * (m * 2 ^ unitExponent) : ℕ) : ℚ) * c := by
  refine ⟨1 / (10 ^ f * 2 ^ (unitExponent + 2)), by positivity, ?_, ?_⟩
  · intro k
    have split : (doublings n : ℤ) - 1074 - 2 = doublings n - (unitExponent + 2 : ℕ) := by
      unfold unitExponent
      omega
    rw [split, zpow_sub₀ (by norm_num), zpow_natCast, zpow_natCast]
    push_cast
    field_simp
  · push_cast
    rw [pow_add]
    field_simp
    norm_num

/-- **The interval of the digit search** is the one of rounding. -/
theorem reached_of_reaches {negative : Bool} {n m f : Nat}
    (h : (parts negative n).Reaches (m / 10 ^ f)) :
    Reached n (m * 2 ^ unitExponent) (10 ^ f) := by
  obtain ⟨c, pos, quarters, whole⟩ := exists_measure n m f
  have lower : (parts negative n).low =
      (((4 * mantissa n - quartersBelow n) * (10 ^ f * 2 ^ doublings n) : ℕ) : ℚ) * c := by
    rw [← quarters, ← quartersBelow_parts negative]
    rfl
  have upper : (parts negative n).high =
      (((4 * mantissa n + 2) * (10 ^ f * 2 ^ doublings n) : ℕ) : ℚ) * c := by
    rw [← quarters]
    rfl
  obtain ⟨low, high, inner⟩ := h
  rw [lower, upper, whole] at inner
  rw [lower, whole] at low
  rw [upper, whole] at high
  refine ⟨?_, ?_, ?_⟩
  · exact_mod_cast le_of_mul_le_mul_right low pos
  · exact_mod_cast le_of_mul_le_mul_right high pos
  · intro odd
    obtain ⟨above, below⟩ := inner odd
    exact ⟨by exact_mod_cast lt_of_mul_lt_mul_right above (le_of_lt pos),
      by exact_mod_cast lt_of_mul_lt_mul_right below (le_of_lt pos)⟩

end Binary64

/-! ## Layout -/

namespace Decimal

theorem natOfDigits_append (cs ds : List Char) :
    natOfDigits (cs ++ ds) = Nat.ofDigitChars 10 ds (natOfDigits cs) :=
  Nat.ofDigitChars_append 0

theorem natOfDigits_natText (n : Nat) : natOfDigits (natText n) = n :=
  Nat.ofDigitChars_ten_toDigits

theorem natOfDigits_zeros (k : Nat) : natOfDigits (List.replicate k '0') = 0 :=
  Nat.ofDigitChars_replicate_zero

theorem isDigit_natText (n : Nat) : ∀ c ∈ natText n, c.isDigit = true := by
  intro c hc
  exact Nat.isDigit_of_mem_toDigits (by decide) (by decide) hc

theorem isDigit_zeros (k : Nat) : ∀ c ∈ List.replicate k '0', c.isDigit = true := by
  intro c hc
  rw [List.eq_of_mem_replicate hc]
  decide

/-- The decimal number that a numeral stands for. -/
def numeralValue (n : Numeral) : ℚ := (natOfDigits n.digits : ℚ) / 10 ^ n.places

/-- A whole number is followed by its zeros. -/
theorem exists_numeral_whole (c : Nat) (k : Nat) :
    ∃ n : Numeral, natText c ++ List.replicate k '0' = n.text ∧ numeralValue n = c * 10 ^ k := by
  refine ⟨⟨natText c ++ List.replicate k '0', none, ?_, fun _ hd => (nomatch hd), .inl ?_⟩,
    (List.append_nil _).symm, ?_⟩
  · intro d hd
    rcases List.mem_append.1 hd with hd | hd
    · exact isDigit_natText c d hd
    · exact isDigit_zeros k d hd
  · exact List.append_ne_nil_of_left_ne_nil Nat.toDigits_ne_nil _
  · have digits : natOfDigits (natText c ++ List.replicate k '0' ++ []) = 10 ^ k * c := by
      rw [List.append_nil, natOfDigits_append, natOfDigits_natText,
        Nat.ofDigitChars_replicate_zero]
    show (natOfDigits (natText c ++ List.replicate k '0' ++ []) : ℚ) / 10 ^ 0 = _
    rw [digits]
    push_cast
    ring

/-- The point may stand within the digits. -/
theorem exists_numeral_point (c : Nat) {k : Nat} (pos : 0 < k) (le : k ≤ (natText c).length) :
    ∃ n : Numeral, (natText c).take k ++ '.' :: (natText c).drop k = n.text ∧
      numeralValue n = c / 10 ^ ((natText c).length - k) := by
  refine ⟨⟨(natText c).take k, some ((natText c).drop k),
    fun d hd => isDigit_natText c d (List.mem_of_mem_take hd),
    fun d hd => isDigit_natText c d (List.mem_of_mem_drop hd), .inl ?_⟩, rfl, ?_⟩
  · intro none
    have length := congrArg List.length none
    rw [List.length_take, List.length_nil] at length
    omega
  · show (natOfDigits ((natText c).take k ++ (natText c).drop k) : ℚ) /
      10 ^ ((natText c).drop k).length = _
    rw [List.take_append_drop, natOfDigits_natText, List.length_drop]

/-- Before small digits stand a zero, the point and more zeros. -/
theorem exists_numeral_small (c : Nat) (k : Nat) :
    ∃ n : Numeral, '0' :: '.' :: (List.replicate k '0' ++ natText c) = n.text ∧
      numeralValue n = c / 10 ^ (k + (natText c).length) := by
  refine ⟨⟨['0'], some (List.replicate k '0' ++ natText c), ?_, ?_,
    .inl (List.cons_ne_nil _ _)⟩, rfl, ?_⟩
  · intro d hd
    rw [List.mem_singleton.1 hd]
    decide
  · intro d hd
    rcases List.mem_append.1 hd with hd | hd
    · exact isDigit_zeros k d hd
    · exact isDigit_natText c d hd
  · have digits : natOfDigits (['0'] ++ (List.replicate k '0' ++ natText c)) = c := by
      have zeros : ['0'] ++ List.replicate k '0' = List.replicate (k + 1) '0' := rfl
      rw [← List.append_assoc, zeros, natOfDigits_append, natOfDigits_zeros]
      exact natOfDigits_natText c
    show (natOfDigits (['0'] ++ (List.replicate k '0' ++ natText c)) : ℚ) /
      10 ^ (List.replicate k '0' ++ natText c).length = _
    rw [digits, List.length_append, List.length_replicate]

theorem Digits.text_plain (d : Digits) : d.text plain = d.positional [] := rfl

theorem text_eq {style : Style} {v : Float} {b : Binary} (h : Binary.ofFloat? v = some b) :
    text style v = (if b.negative then ['-'] else []) ++ b.digits.text style := by
  unfold text
  rw [h]

/-- **Digits are laid out as a numeral** of their value. -/
theorem Digits.exists_numeral (d : Digits) :
    ∃ n : Numeral, d.positional [] = n.text ∧ numeralValue n = d.value := by
  have some : 0 < (natText d.coefficient).length := Nat.length_toDigits_pos
  unfold positional value
  simp only
  split
  · rename_i whole
    obtain ⟨n, text, number⟩ := exists_numeral_whole d.coefficient d.exponent.toNat
    have power : d.exponent = (d.exponent.toNat : ℤ) := (Int.toNat_of_nonneg whole).symm
    refine ⟨n, by rw [List.append_nil, text], ?_⟩
    rw [number, ← zpow_natCast, ← power]
  rename_i below
  -- otherwise the exponent says how many digits stand behind the point
  have behind (k : Nat) (hk : d.exponent = -(k : ℤ)) :
      (d.coefficient : ℚ) / 10 ^ k = d.coefficient * 10 ^ d.exponent := by
    rw [hk, zpow_neg, zpow_natCast, div_eq_mul_inv]
  split
  · rename_i lead
    obtain ⟨n, text, number⟩ := exists_numeral_point d.coefficient
      (k := (d.exponent + (natText d.coefficient).length - 1 + 1).toNat) (by omega) (by omega)
    exact ⟨n, text, number.trans (behind _ (by omega))⟩
  · obtain ⟨n, text, number⟩ := exists_numeral_small d.coefficient
      (-(d.exponent + (natText d.coefficient).length - 1) - 1).toNat
    exact ⟨n, text, number.trans (behind _ (by omega))⟩

end Decimal

/-! ## Reading back -/

namespace Numeral

/-- The text of the constant is its numeral, behind its sign if it has one. -/
def Writes (n : Numeral) (v : Float) : Prop :=
  Decimal.text Decimal.plain v = (if isNegative v then ['-'] else []) ++ n.text ∧
    v = if isNegative v then -n.value else n.value

/-- Digits in the interval of a float are read as its magnitude. -/
theorem code_value {n : Numeral} {negative : Bool} {c : Nat} (finite : c < infinityCode)
    (reaches : (parts negative c).Reaches (Decimal.numeralValue n)) : code n.value = c := by
  have nearest := nearestCode_eq (Nat.pow_pos (by decide)) (reached_of_reaches reaches)
  rw [n.stands_value.code, decimalCode, nearest, Nat.min_eq_right (Nat.le_of_lt finite)]

/-- The digits of a float lie in its interval, those of a zero included. -/
theorem reaches_digits {b : Decimal.Binary} (bits : b.mantissa < 2 ^ 53) :
    b.Reaches b.digits.value := by
  unfold Decimal.Binary.digits
  split
  · rename_i zero
    have number : (Decimal.Digits.mk 0 0).value = 0 := by simp [Decimal.Digits.value]
    have below : 4 * b.mantissa - b.quartersBelow = 0 := by omega
    rw [number]
    refine ⟨?_, ?_, fun odd => by omega⟩
    · rw [Decimal.Binary.low, below, Nat.cast_zero, zero_mul]
    · unfold Decimal.Binary.high
      positivity
  · rename_i some
    exact Decimal.Binary.reaches_shortest (Nat.pos_of_ne_zero some) bits

/-- **Every finite float is read back** from the numeral it is written as. -/
theorem exists_writes {v : Float} (h : v.isFinite = true) : ∃ n : Numeral, n.Writes v := by
  obtain ⟨n, text, number⟩ := (parts (isNegative v) (code v)).digits.exists_numeral
  have reaches := reaches_digits (b := parts (isNegative v) (code v)) (mantissa_bounds _).1
  rw [← number] at reaches
  have finite := (isFinite_iff v).1 h
  have magnitude := code_value finite reaches
  have plus : isNegative n.value = false := signOf_inj n.stands_value.sign
  refine ⟨n, ?_, ?_⟩
  · rw [Decimal.text_eq (ofFloat?_eq h), Decimal.Digits.text_plain, text]
    rfl
  · cases sign : isNegative v with
    | false =>
      rw [if_neg Bool.false_ne_true]
      exact eq_of_code_eq (sign.trans plus.symm) magnitude.symm
    | true =>
      rw [if_pos rfl]
      have defined : code n.value ≤ infinityCode := by
        rw [magnitude]
        exact Nat.le_of_lt finite
      have negated := stands_neg defined
      rw [plus] at negated
      have minus : isNegative (-n.value) = true := signOf_inj negated.sign
      exact eq_of_code_eq (sign.trans minus.symm) (magnitude.symm.trans negated.code.symm)

end Numeral

end CurvePuzzle
