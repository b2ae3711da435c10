import Mathlib.Algebra.Order.Field.Power
import Mathlib.Algebra.Order.Field.Rat
import Mathlib.Tactic.FieldSimp
import Mathlib.Tactic.Linarith
import Mathlib.Tactic.Positivity
import Mathlib.Tactic.Ring
import CurvePuzzle.Decimal.Shortest

/-!
# The shortest digits

The digits that are searched for a float lie in the interval of the numbers that round to it.

* `Ratio.value`, `Digits.value`: what quotients and digits stand for.
* `pow_leadingExponent_le`: the power of ten at the leading digit of a quotient.
* `Binary.Reaches`: the interval of a float; `reaches_of_holds`: a grid point that fits lies in it.
* `exists_nearest_leading`: seventeen digits are enough for every float.
* `reaches_shortest`: the search never comes back without such digits.
-/

set_option autoImplicit false

namespace CurvePuzzle.Decimal

/-! ## Values -/

/-- The number that digits stand for. -/
def Digits.value (d : Digits) : ℚ := d.coefficient * 10 ^ d.exponent

namespace Ratio

/-- The number that a quotient stands for. -/
def value (r : Ratio) : ℚ := r.num / r.den

theorem pow_toNat_div (b : ℕ) (hb : 0 < b) (e : ℤ) :
    (b : ℚ) ^ e.toNat / (b : ℚ) ^ (-e).toNat = (b : ℚ) ^ e := by
  have ne : (b : ℚ) ≠ 0 := by positivity
  rw [← zpow_natCast, ← zpow_natCast, ← zpow_sub₀ ne]
  congr 1
  omega

theorem scale_den_pos (n : Nat) (two ten : Int) : 0 < (scale n two ten).den :=
  Nat.mul_pos (Nat.pow_pos (by decide)) (Nat.pow_pos (by decide))

theorem scale_num_pos {n : Nat} (pos : 0 < n) (two ten : Int) : 0 < (scale n two ten).num :=
  Nat.mul_pos (Nat.mul_pos pos (Nat.pow_pos (by decide))) (Nat.pow_pos (by decide))

theorem value_scale (n : Nat) (two ten : Int) :
    (scale n two ten).value = n * 2 ^ two * 10 ^ ten := by
  have twos := pow_toNat_div 2 (by decide) two
  have tens := pow_toNat_div 10 (by decide) ten
  have num : ((scale n two ten).num : ℚ) = n * (2 : ℕ) ^ two.toNat * (10 : ℕ) ^ ten.toNat := by
    show ((n * 2 ^ two.toNat * 10 ^ ten.toNat : ℕ) : ℚ) = _
    push_cast
    rfl
  have den : ((scale n two ten).den : ℚ) = (2 : ℕ) ^ (-two).toNat * (10 : ℕ) ^ (-ten).toNat := by
    show ((2 ^ (-two).toNat * 10 ^ (-ten).toNat : ℕ) : ℚ) = _
    push_cast
    rfl
  rw [value, num, den, mul_assoc, mul_div_assoc, mul_div_mul_comm, twos, tens, mul_assoc]
  rfl

end Ratio

/-! ## The leading digit -/

theorem lt_pow_digitCount (n : Nat) : n < 10 ^ digitCount n := by
  unfold digitCount
  split
  · rename_i zero
    rw [zero]
    decide
  · exact (Nat.length_toDigits_le_iff (by decide) Nat.length_toDigits_pos).1 (Nat.le_refl _)

theorem pow_digitCount_le {n : Nat} (h : 0 < n) : 10 ^ (digitCount n - 1) ≤ n := by
  rw [digitCount, if_neg (Nat.ne_of_gt h)]
  rcases Nat.eq_zero_or_pos ((Nat.toDigits 10 n).length - 1) with one | more
  · rw [one]
    exact h
  · by_contra small
    have short := (Nat.length_toDigits_le_iff (by decide) more).2 (Nat.not_le.1 small)
    omega

/-- **The power of the leading digit** is not larger than the quotient. -/
theorem pow_leadingExponent_le {r : Ratio} (hn : 0 < r.num) (hd : 0 < r.den) :
    (10 : ℚ) ^ leadingExponent r ≤ r.value := by
  have num : (0 : ℚ) < r.num := by exact_mod_cast hn
  have den : (0 : ℚ) < r.den := by exact_mod_cast hd
  unfold leadingExponent Ratio.value
  split
  · rename_i large
    have whole : 0 < r.num / r.den := Nat.div_pos large hd
    have pos : 0 < digitCount (r.num / r.den) := by
      rw [digitCount, if_neg (Nat.ne_of_gt whole)]
      exact Nat.length_toDigits_pos
    have exponent : ((digitCount (r.num / r.den) : ℤ) - 1) =
        ((digitCount (r.num / r.den) - 1 : ℕ) : ℤ) := by omega
    rw [exponent, zpow_natCast, le_div_iff₀ den]
    exact_mod_cast le_trans (Nat.mul_le_mul_right r.den (pow_digitCount_le whole))
      (Nat.div_mul_le_self r.num r.den)
  · rename_i small
    rw [zpow_neg, zpow_natCast, inv_le_iff_one_le_mul₀ (by positivity), div_mul_eq_mul_div,
      le_div_iff₀ den, one_mul]
    have ceiling := lt_pow_digitCount ((r.den + r.num - 1) / r.num - 1)
    have parts := Nat.div_add_mod (r.den + r.num - 1) r.num
    have rest := Nat.mod_lt (r.den + r.num - 1) hn
    generalize (r.den + r.num - 1) / r.num = c at *
    have cover : r.num * c ≤ r.num * 10 ^ digitCount (c - 1) :=
      Nat.mul_le_mul_left r.num (by omega)
    have whole : r.den ≤ r.num * 10 ^ digitCount (c - 1) := by omega
    exact_mod_cast whole

/-! ## The interval of a float -/

theorem Reach.holds_iff {r : Reach} {n : Nat} :
    r.holds n = true ↔ (r.low ≤ n * r.den ∧ n * r.den ≤ r.high) ∧
      (r.closed = false → r.low < n * r.den ∧ n * r.den < r.high) := by
  unfold Reach.holds
  cases closed : r.closed with
  | true => simp
  | false =>
    simp only [Bool.false_eq_true, if_false, Bool.and_eq_true, decide_eq_true_eq, forall_const]
    omega

/-- **On a grid finer than the interval** one of the neighbours of the value fits. -/
theorem Reach.exists_nearest {r : Reach} (pos : 0 < r.den) (below : r.low < r.value)
    (above : r.value < r.high) (fine : r.low + r.den < r.high) : ∃ n, r.nearest? = some n := by
  have floor := Nat.div_mul_le_self r.value r.den
  have ceiling := Nat.lt_mul_div_succ r.value pos
  have next : (r.value / r.den + 1) * r.den = r.value / r.den * r.den + r.den := by
    rw [Nat.add_mul, Nat.one_mul]
  rw [Nat.mul_comm, next] at ceiling
  have fits : r.holds (r.value / r.den) = true ∨ r.holds (r.value / r.den + 1) = true := by
    rw [holds_iff, holds_iff, next]
    omega
  unfold nearest?
  simp only
  split
  · split
    · exact ⟨_, rfl⟩
    · exact ⟨_, rfl⟩
  · split
    · exact ⟨_, rfl⟩
    · rename_i notFloor
      rw [if_pos (fits.resolve_left notFloor)]
      exact ⟨_, rfl⟩

theorem Reach.holds_of_nearest {r : Reach} {n : Nat} (h : r.nearest? = some n) :
    r.holds n = true := by
  unfold Reach.nearest? at h
  simp only at h
  split at h
  · rename_i both
    obtain ⟨floor, above⟩ := Bool.and_eq_true_iff.1 both
    split at h
    · rwa [← Option.some.inj h]
    · rwa [← Option.some.inj h]
  · split at h
    · rename_i floor
      rwa [← Option.some.inj h]
    · split at h
      · rename_i above
        rwa [← Option.some.inj h]
      · cases h

namespace Binary

/-- How many quarters of its unit the interval of a float reaches down. -/
def quartersBelow (b : Binary) : Nat := if b.isBoundary then 1 else 2

/-- The lower end of the interval of a float. -/
def low (b : Binary) : ℚ := (4 * b.mantissa - b.quartersBelow : ℕ) * 2 ^ (b.exponent - 2)

/-- The upper end of the interval of a float. -/
def high (b : Binary) : ℚ := (4 * b.mantissa + 2 : ℕ) * 2 ^ (b.exponent - 2)

/-- Does a number lie in the interval of a float, with its ends if the mantissa is even? -/
structure Reaches (b : Binary) (x : ℚ) : Prop where
  low : b.low ≤ x
  high : x ≤ b.high
  inner : b.mantissa % 2 = 1 → b.low < x ∧ x < b.high

/-- Quarters of the unit and points of the grid have a common measure. -/
theorem exists_measure (b : Binary) (grid : Int) :
    ∃ c : ℚ, 0 < c ∧
      (∀ k : ℕ, k * 2 ^ (b.exponent - 2) =
        ((k * (Ratio.scale 1 (b.exponent - 2) (-grid)).num : ℕ) : ℚ) * c) ∧
      ∀ n : ℕ, n * 10 ^ grid =
        ((n * (Ratio.scale 1 (b.exponent - 2) (-grid)).den : ℕ) : ℚ) * c := by
  have value := Ratio.value_scale 1 (b.exponent - 2) (-grid)
  have pos : (0 : ℚ) < (Ratio.scale 1 (b.exponent - 2) (-grid)).den := by
    exact_mod_cast Ratio.scale_den_pos _ _ _
  generalize Ratio.scale 1 (b.exponent - 2) (-grid) = r at *
  have ten : (0 : ℚ) < 10 ^ grid := by positivity
  rw [Ratio.value, Nat.cast_one, one_mul, zpow_neg, div_eq_iff (ne_of_gt pos)] at value
  refine ⟨10 ^ grid / r.den, by positivity, ?_, ?_⟩
  · intro k
    rw [Nat.cast_mul, value]
    field_simp
  · intro n
    rw [Nat.cast_mul]
    field_simp

/-- **A grid point that fits** is a number in the interval. -/
theorem reaches_of_holds {b : Binary} {grid : Int} {n : Nat}
    (h : (b.reach grid).holds n = true) : b.Reaches (n * 10 ^ grid) := by
  obtain ⟨c, pos, quarters, points⟩ := b.exists_measure grid
  obtain ⟨⟨low, high⟩, inner⟩ := Reach.holds_iff.1 h
  refine ⟨?_, ?_, ?_⟩
  · rw [Binary.low, quarters, points]
    exact mul_le_mul_of_nonneg_right (by exact_mod_cast low) (le_of_lt pos)
  · rw [Binary.high, quarters, points]
    exact mul_le_mul_of_nonneg_right (by exact_mod_cast high) (le_of_lt pos)
  · intro odd
    have isOpen : (b.reach grid).closed = false := by
      rw [reach, odd]
      rfl
    obtain ⟨above, below⟩ := inner isOpen
    rw [Binary.low, Binary.high, quarters, quarters, points]
    exact ⟨mul_lt_mul_of_pos_right (by exact_mod_cast above) pos,
      mul_lt_mul_of_pos_right (by exact_mod_cast below) pos⟩

end Binary

/-! ## The search -/

/-- Dropping trailing zeros keeps the value. -/
theorem Digits.value_trim (fuel : Nat) (d : Digits) : (d.trim fuel).value = d.value := by
  induction fuel generalizing d with
  | zero => rfl
  | succ fuel ih =>
    unfold trim
    split
    · rename_i zero
      rw [ih]
      simp only [Bool.and_eq_true, beq_iff_eq] at zero
      have tenfold : d.coefficient = 10 * (d.coefficient / 10) := by omega
      have ten : (10 : ℚ) ≠ 0 := by norm_num
      rw [Digits.value, Digits.value, zpow_add_one₀ ten]
      conv_rhs => rw [tenfold]
      push_cast
      ring
    · rfl

namespace Binary

/-- Sixteen places behind the leading digit the value has that many points of the grid below it. -/
theorem le_value_of_leading {b : Binary} {grid : Int}
    (leading : (10 : ℚ) ^ (grid + 16) ≤ b.mantissa * 2 ^ b.exponent) :
    10 ^ 16 * (b.reach grid).den ≤ (b.reach grid).value := by
  obtain ⟨c, posC, quarters, points⟩ := b.exists_measure grid
  have ten : (10 : ℚ) ≠ 0 := by norm_num
  have scaled :
      ((10 ^ 16 : ℕ) : ℚ) * 10 ^ grid ≤ (4 * b.mantissa : ℕ) * 2 ^ (b.exponent - 2) := by
    calc ((10 ^ 16 : ℕ) : ℚ) * 10 ^ grid = 10 ^ (grid + 16) := by
          rw [zpow_add₀ ten, mul_comm]
          norm_num
      _ ≤ b.mantissa * 2 ^ b.exponent := leading
      _ = (4 * b.mantissa : ℕ) * 2 ^ (b.exponent - 2) := by
          rw [zpow_sub₀ (by norm_num : (2 : ℚ) ≠ 0)]
          push_cast
          ring
  rw [quarters, points] at scaled
  exact_mod_cast le_of_mul_le_mul_right scaled posC

/-- So the grid is finer than the interval, for any float. -/
theorem fine_of_leading {b : Binary} (pos : 0 < b.mantissa) (bits : b.mantissa < 2 ^ 53)
    {grid : Int} (leading : (10 : ℚ) ^ (grid + 16) ≤ b.mantissa * 2 ^ b.exponent) :
    (b.reach grid).low + (b.reach grid).den < (b.reach grid).high := by
  have unit := Ratio.scale_num_pos Nat.one_pos (b.exponent - 2) (-grid)
  have digits : 10 ^ 16 * (b.reach grid).den ≤
      4 * b.mantissa * (Ratio.scale 1 (b.exponent - 2) (-grid)).num := le_value_of_leading leading
  show (4 * b.mantissa - b.quartersBelow) * (Ratio.scale 1 (b.exponent - 2) (-grid)).num +
    (b.reach grid).den < (4 * b.mantissa + 2) * (Ratio.scale 1 (b.exponent - 2) (-grid)).num
  generalize (Ratio.scale 1 (b.exponent - 2) (-grid)).num = u at *
  generalize (b.reach grid).den = t at *
  rw [Nat.mul_assoc] at digits
  rw [Nat.sub_mul, Nat.add_mul, Nat.mul_assoc]
  unfold quartersBelow
  split
  · rename_i boundary
    have top : b.mantissa = 2 ^ 52 := by
      simp only [isBoundary, Bool.and_eq_true, beq_iff_eq] at boundary
      exact boundary.1
    rw [top] at digits ⊢
    omega
  · have small : b.mantissa * u < 2 ^ 53 * u := Nat.mul_lt_mul_of_pos_right bits unit
    have some : 1 * u ≤ b.mantissa * u := Nat.mul_le_mul_right u pos
    omega

theorem exists_nearest_leading {b : Binary} (pos : 0 < b.mantissa) (bits : b.mantissa < 2 ^ 53)
    {grid : Int} (leading : (10 : ℚ) ^ (grid + 16) ≤ b.mantissa * 2 ^ b.exponent) :
    ∃ n, (b.reach grid).nearest? = some n := by
  have unit := Ratio.scale_num_pos Nat.one_pos (b.exponent - 2) (-grid)
  apply Reach.exists_nearest
  · exact Ratio.scale_den_pos 1 (b.exponent - 2) (-grid)
  · show (4 * b.mantissa - b.quartersBelow) * _ < 4 * b.mantissa * _
    have some : 0 < b.quartersBelow := by
      unfold quartersBelow
      split <;> decide
    exact Nat.mul_lt_mul_of_pos_right (by omega) unit
  · show 4 * b.mantissa * _ < (4 * b.mantissa + 2) * _
    exact Nat.mul_lt_mul_of_pos_right (by omega) unit
  · exact fine_of_leading pos bits leading

/-- **The shortest digits lie in the interval** of the float: the search finds digits that do, at
the latest the seventeenth. -/
theorem reaches_shortest {b : Binary} (pos : 0 < b.mantissa) (bits : b.mantissa < 2 ^ 53) :
    b.Reaches b.shortest.value := by
  obtain ⟨lead, hl⟩ : ∃ lead, lead = leadingExponent (Ratio.scale b.mantissa b.exponent 0) :=
    ⟨_, rfl⟩
  have leading : (10 : ℚ) ^ lead ≤ b.mantissa * 2 ^ b.exponent := by
    have bound := pow_leadingExponent_le (Ratio.scale_num_pos pos b.exponent 0)
      (Ratio.scale_den_pos _ _ _)
    rw [Ratio.value_scale, zpow_zero, mul_one, ← hl] at bound
    exact bound
  unfold shortest
  simp only [← hl]
  rw [Digits.value_trim]
  cases found : (List.range 17).findSome? fun (i : Nat) =>
      (b.reach (lead - i)).nearest?.map fun n => (⟨n, lead - i⟩ : Digits) with
  | none =>
    have last := List.findSome?_eq_none_iff.1 found 16 (by decide)
    have seventeen : (10 : ℚ) ^ (lead - 16 + 16) ≤ b.mantissa * 2 ^ b.exponent := by
      rw [sub_add_cancel]
      exact leading
    obtain ⟨n, near⟩ := exists_nearest_leading pos bits seventeen
    have missed : (b.reach (lead - 16)).nearest? = none := Option.map_eq_none_iff.1 last
    rw [near] at missed
    cases missed
  | some d =>
    obtain ⟨i, -, digits⟩ := List.exists_of_findSome?_eq_some found
    obtain ⟨n, near, rfl⟩ := Option.map_eq_some_iff.1 digits
    exact reaches_of_holds (Reach.holds_of_nearest near)

end Binary

end CurvePuzzle.Decimal
