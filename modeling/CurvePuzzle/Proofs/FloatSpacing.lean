import CurvePuzzle.Proofs.FloatArithmetic

/-!
# The spacing of floats

From one float to the next it is a power of two, the spacing, which grows with the magnitude. It
says what a rounded operation can lose.

* `units_succ`, `units_le_units_iff`: what codes stand for rises with them, by the spacing at each
  step.
* `amount_le_amount_iff`: floats are ordered by their places as by their exact values.
* `units_nearestCode_bounds`: rounding a whole number is off by half a spacing at most.
* `place_lt_place_add`: a float moves when as much as its spacing is added to it.
* `place_add_le_place_add`, `code_sub_le_code_sub`, `productCode_le_productCode`: rounding keeps
  the order of exact results.
* `code_half_le`, `le_two_mul_units_pred`: half of a length that exceeds a step by little is below
  that step.
-/

set_option autoImplicit false

namespace CurvePuzzle.Binary64

open Float.Model Float.Model.UnpackedFloat
open Decimal (roundHalfEven)

/-- The distance of the float of a code from the next one, in units of the smallest float. -/
def spacing (n : Nat) : Nat := 2 ^ doublings n

theorem spacing_pos (n : Nat) : 0 < spacing n := Nat.two_pow_pos _

theorem spacing_le_spacing {n k : Nat} (h : n ≤ k) : spacing n ≤ spacing k :=
  Nat.pow_le_pow_right (by decide) (doublings_le_doublings h)

/-! ## Exact values -/

theorem units_succ (n : Nat) : units (n + 1) = units n + spacing n := by
  unfold units spacing
  by_cases same : doublings (n + 1) = doublings n
  · have next : mantissa (n + 1) = mantissa n + 1 := by
      have parts := code_parts n
      unfold mantissa at parts ⊢
      omega
    rw [same, next, Nat.add_mul, Nat.one_mul]
  · -- the mantissa is full, so the exponent counts on
    have carry : doublings (n + 1) = doublings n + 1 := by unfold doublings at *; omega
    have full : mantissa n + 1 = 2 ^ 53 := by unfold mantissa doublings at *; omega
    have least : mantissa (n + 1) = 2 ^ 52 := by unfold mantissa doublings at *; omega
    calc mantissa (n + 1) * 2 ^ doublings (n + 1)
        = 2 ^ 52 * 2 ^ (doublings n + 1) := by rw [least, carry]
      _ = 2 ^ 53 * 2 ^ doublings n := by
        rw [← Nat.pow_add, ← Nat.pow_add, Nat.add_comm _ 1, ← Nat.add_assoc]
      _ = mantissa n * 2 ^ doublings n + 2 ^ doublings n := by
        rw [← full, Nat.add_mul, Nat.one_mul]

theorem units_lt_units_succ (n : Nat) : units n < units (n + 1) := by
  rw [units_succ]
  exact Nat.lt_add_of_pos_right (spacing_pos n)

theorem units_le_units {n k : Nat} (h : n ≤ k) : units n ≤ units k := by
  obtain ⟨j, rfl⟩ := Nat.exists_eq_add_of_le h
  clear h
  induction j with
  | zero => exact Nat.le_refl _
  | succ j ih =>
    have next := Nat.le_of_lt (units_lt_units_succ (n + j))
    rw [Nat.add_assoc] at next
    exact Nat.le_trans ih next

theorem units_le_units_iff {n k : Nat} : units n ≤ units k ↔ n ≤ k := by
  refine ⟨?_, units_le_units⟩
  intro h
  rw [← nearestCode_units n, ← nearestCode_units k]
  exact nearestCode_mono Nat.one_pos Nat.one_pos (Nat.mul_le_mul_right 1 h)

theorem apply_signOf (negative : Bool) (i : Int) :
    (signOf negative).apply i = if negative then -i else i := by
  cases negative <;> rfl

theorem amount_eq (v : Float) :
    amount v = if isNegative v then -(units (code v) : Int) else units (code v) :=
  apply_signOf _ _

/-- **Floats are ordered as the numbers that they stand for.** -/
theorem amount_le_amount_iff {v w : Float} : amount v ≤ amount w ↔ place v ≤ place w := by
  have rise := units_le_units_iff (n := code v) (k := code w)
  have fall := units_le_units_iff (n := code w) (k := code v)
  have zeroV := units_le_units_iff (n := code v) (k := 0)
  have zeroW := units_le_units_iff (n := code w) (k := 0)
  rw [units_zero] at zeroV zeroW
  rw [amount_eq, amount_eq, place, place]
  split <;> split <;> omega

/-! ## Rounding -/

/-- The code of a rounded mantissa, one carried into a further bit included. -/
theorem units_of_fitted {f r : Nat} (bits : r ≤ 2 ^ 53) (top : f = 0 ∨ 2 ^ 52 ≤ r) :
    units (f * 2 ^ 52 + r) = r * 2 ^ f ∧ 2 ^ f ≤ spacing (f * 2 ^ 52 + r) := by
  unfold units spacing
  rcases Nat.lt_or_eq_of_le bits with small | rfl
  · have same : doublings (f * 2 ^ 52 + r) = f := by unfold doublings; omega
    have whole : mantissa (f * 2 ^ 52 + r) = r := by unfold mantissa; omega
    rw [same, whole]
    exact ⟨rfl, Nat.le_refl _⟩
  · have carry : doublings (f * 2 ^ 52 + 2 ^ 53) = f + 1 := by unfold doublings; omega
    have half : mantissa (f * 2 ^ 52 + 2 ^ 53) = 2 ^ 52 := by unfold mantissa; omega
    refine ⟨?_, ?_⟩
    · rw [half, carry, ← Nat.pow_add, ← Nat.pow_add, Nat.add_comm f 1, ← Nat.add_assoc]
    · rw [carry]
      exact Nat.pow_le_pow_right (by decide) (Nat.le_succ f)

/-- **Rounding a whole number** is off by half the spacing of the result at most. -/
theorem units_nearestCode_bounds (a : Nat) :
    2 * units (nearestCode a 1) ≤ 2 * a + spacing (nearestCode a 1) ∧
      2 * a ≤ 2 * units (nearestCode a 1) + spacing (nearestCode a 1) := by
  obtain ⟨low, high⟩ :=
    roundHalfEven_bounds a (b := 1 * 2 ^ fit a 1) (Nat.mul_pos Nat.one_pos (Nat.two_pow_pos _))
  obtain ⟨bits, top⟩ := fitted_bounds a (b := 1)
  obtain ⟨whole, wide⟩ := units_of_fitted bits top
  rw [Nat.one_mul] at *
  unfold nearestCode
  rw [Nat.one_mul, whole]
  omega

/-- So is rounding a whole number with a sign, unless the result overflows. -/
theorem amount_bounds_of_sum {v : Float} {s t : Sign} {i : Int} (h : Sum v s t i)
    (finite : code v < infinityCode) :
    2 * amount v ≤ 2 * i + spacing (code v) ∧ 2 * i ≤ 2 * amount v + spacing (code v) := by
  have exact : code v = nearestCode i.natAbs 1 := by
    have := h.code
    omega
  obtain ⟨low, high⟩ := units_nearestCode_bounds i.natAbs
  rw [← exact] at low high
  have value : amount v = if i < 0 then -(units (code v) : Int) else units (code v) := by
    have placed := h.place
    unfold nearestPlace at placed
    rw [← exact, Nat.min_eq_right (Nat.le_of_lt finite)] at placed
    have zero := units_le_units_iff (n := code v) (k := 0)
    rw [units_zero] at zero
    rw [place] at placed
    rw [amount_eq]
    by_cases below : i < 0 <;> cases minus : isNegative v <;>
      simp only [minus, below, if_true, if_false, Bool.false_eq_true] at placed ⊢ <;> omega
  split at value <;> omega

/-- A sum that is rounded to beyond a float is no nearer than that float. -/
theorem Sum.bounds_of_place {u v : Float} {s t : Sign} {i : Int} (h : Sum u s t i)
    (hv : Binary64.code v ≤ infinityCode) :
    (Binary64.place v < Binary64.place u → amount v < i) ∧
      (Binary64.place u < Binary64.place v → i < amount v) := by
  constructor
  · intro beyond
    by_contra near
    have rise := nearestPlace_mono (Int.not_lt.1 near)
    rw [nearestPlace_amount hv, ← h.place] at rise
    omega
  · intro beyond
    by_contra near
    have rise := nearestPlace_mono (Int.not_lt.1 near)
    rw [nearestPlace_amount hv, ← h.place] at rise
    omega

/-- **As much as its spacing** moves a float upwards. -/
theorem place_lt_place_add {x s : Float} (hx : x.isFinite = true) (hs : code s ≤ infinityCode)
    (positive : isNegative s = false) (much : spacing (code x) ≤ units (code s)) :
    place x < place (x + s) := by
  have finite := (isFinite_iff x).1 hx
  rcases Nat.lt_or_eq_of_le hs with small | infinite
  · have sum := sum_add hx ((isFinite_iff s).2 small)
    have added : amount s = units (code s) := by rw [amount_eq, positive]; rfl
    rw [sum.place, added]
    suffices next : ∃ (r : Sign) (n : Nat), n ≤ infinityCode ∧ place x < r.apply n ∧
        r.apply (units n) ≤ amount x + units (code s) by
      obtain ⟨r, n, hn, above, reached⟩ := next
      have rise := nearestPlace_mono reached
      rw [nearestPlace_apply_units r hn] at rise
      omega
    rw [amount_eq, place]
    split
    · rcases Nat.eq_zero_or_pos (code x) with zero | pos
      · have one : units 1 = 1 := by decide
        have := spacing_pos (code x)
        refine ⟨.positive, 1, by decide, ?_, ?_⟩
        · show -(code x : Int) < (1 : Nat)
          omega
        · show (units 1 : Int) ≤ _
          rw [one, zero, units_zero]
          omega
      · obtain ⟨n, step⟩ : ∃ n, code x = n + 1 := ⟨code x - 1, by omega⟩
        have wide := spacing_le_spacing (Nat.le_add_right n 1)
        have below := units_succ n
        rw [step] at much finite ⊢
        refine ⟨.negative, n, by omega, ?_, ?_⟩
        · show -((n + 1 : Nat) : Int) < -(n : Int)
          omega
        · show -(units n : Int) ≤ _
          omega
    · have above := units_succ (code x)
      refine ⟨.positive, code x + 1, finite, ?_, ?_⟩
      · show (code x : Int) < (code x + 1 : Nat)
        omega
      · show (units (code x + 1) : Int) ≤ _
        omega
  · have stands := stands_add_infinity hx infinite
    have top := stands.place
    rw [positive] at top
    have top : place (x + s) = infinityCode := top
    rw [top, place]
    split <;> omega

/-! ## Operations rise with their operands -/

theorem le_trans {u v w : Float} (h : u ≤ v) (h' : v ≤ w) : u ≤ w := by
  rw [le_iff] at *
  omega

theorem not_lt_iff_le {v w : Float} (hv : code v ≤ infinityCode) (hw : code w ≤ infinityCode) :
    ¬v < w ↔ w ≤ v := by
  rw [lt_iff, le_iff]
  omega

theorem not_le_iff_lt {v w : Float} (hv : code v ≤ infinityCode) (hw : code w ≤ infinityCode) :
    ¬v ≤ w ↔ w < v := by
  rw [lt_iff, le_iff]
  omega

theorem place_add_le_place_add {v w s : Float} (hv : v.isFinite = true) (hw : w.isFinite = true)
    (hs : s.isFinite = true) (h : place v ≤ place w) : place (v + s) ≤ place (w + s) := by
  rw [(sum_add hv hs).place, (sum_add hw hs).place]
  rw [← amount_le_amount_iff] at h
  exact nearestPlace_mono (by omega)

/-- Places that lie farther apart have the larger difference. -/
theorem code_sub_le_code_sub {v w x y : Float} (hv : v.isFinite = true) (hw : w.isFinite = true)
    (hx : x.isFinite = true) (hy : y.isFinite = true) (low : place y ≤ place w)
    (order : place w ≤ place v) (high : place v ≤ place x) : code (v - w) ≤ code (x - y) := by
  rw [← amount_le_amount_iff] at low order high
  have rise := nearestCode_mono (a := (amount v - amount w).natAbs)
    (c := (amount x - amount y).natAbs) Nat.one_pos Nat.one_pos (by omega)
  rw [(sum_sub hv hw).code, (sum_sub hx hy).code]
  omega

theorem productCode_le_productCode {n m k l : Nat} (left : n ≤ m) (right : k ≤ l)
    (hm : m ≤ infinityCode) (hl : l ≤ infinityCode) : productCode n k ≤ productCode m l := by
  by_cases infinite : m = infinityCode ∨ l = infinityCode
  · rw [productCode, productCode, if_pos infinite]
    split
    · exact Nat.le_refl _
    · exact Nat.min_le_left _ _
  · have rise := nearestCode_mono (a := units n * units k) (c := units m * units l)
      (Nat.two_pow_pos unitExponent) (Nat.two_pow_pos unitExponent)
      (Nat.mul_le_mul_right _ (Nat.mul_le_mul (units_le_units left) (units_le_units right)))
    rw [productCode_of_lt (by omega) (by omega), productCode_of_lt (by omega) (by omega)]
    omega

/-! ## Halving -/

/-- Twice a float is a float, as long as nothing overflows. -/
theorem exists_units_eq_two_mul (n : Nat) : ∃ k, units k = 2 * units n := by
  rcases Nat.lt_or_ge n (2 ^ 52) with small | normal
  · refine ⟨2 * n, ?_⟩
    have same : doublings n = 0 ∧ doublings (2 * n) = 0 := by unfold doublings; omega
    unfold units mantissa
    rw [same.1, same.2]
    omega
  · refine ⟨n + 2 ^ 52, ?_⟩
    have next : doublings (n + 2 ^ 52) = doublings n + 1 := by unfold doublings; omega
    have same : mantissa (n + 2 ^ 52) = mantissa n := by unfold mantissa; rw [next]; omega
    unfold units
    rw [next, same, Nat.pow_succ, ← Nat.mul_assoc, Nat.mul_comm]

theorem units_nearestCode_le {a n : Nat} (h : a ≤ 2 * units n) :
    units (nearestCode a 1) ≤ 2 * units n := by
  obtain ⟨k, twice⟩ := exists_units_eq_two_mul n
  have rise := nearestCode_mono (a := a) (c := units k) Nat.one_pos Nat.one_pos (by omega)
  rw [nearestCode_units] at rise
  rw [← twice]
  exact units_le_units rise

theorem units_code_two : units (code 2.0) = 2 * 2 ^ unitExponent := by decide +kernel

/-- **The half of no more than twice a float** is that float at most. -/
theorem code_half_le {v : Float} {n : Nat} (hv : code v < infinityCode)
    (h : units (code v) ≤ 2 * units n) : code (v / 2.0) ≤ n := by
  have half := stands_div (w := 2.0) (Nat.le_of_lt hv) (by decide) (by decide)
  rw [half.code, quotientCode, if_neg (Nat.ne_of_lt hv), units_code_two]
  have rise := nearestCode_mono (a := units (code v) * 2 ^ unitExponent) (c := units n)
    (b := 2 * 2 ^ unitExponent) (d := 1) (by decide +kernel) Nat.one_pos
    (by
      have := Nat.mul_le_mul_right (2 ^ unitExponent) h
      rw [Nat.mul_one, Nat.mul_left_comm, ← Nat.mul_assoc]
      exact this)
  rw [nearestCode_units] at rise
  exact Nat.le_trans (Nat.min_le_right _ _) rise

/-- A length that exceeds a step by a quarter of it at most is at most twice the float below the
step; `g` bounds the excess, and the step is at least twice as long. -/
theorem le_two_mul_units_pred {a c g : Nat} (pos : 0 < g) (long : 2 * g ≤ units c)
    (near : 2 * a ≤ 2 * units c + g) : a ≤ 2 * units (c - 1) := by
  obtain ⟨n, rfl⟩ : ∃ n, c = n + 1 := by
    refine ⟨c - 1, ?_⟩
    have nonzero : c ≠ 0 := by
      rintro rfl
      rw [units_zero] at long
      omega
    omega
  rw [units_succ] at long near
  rw [Nat.add_sub_cancel]
  have small : spacing n = 1 ∨ 2 * spacing n ≤ units n := by
    unfold spacing units
    rcases (mantissa_bounds n).2 with none | top
    · rw [none]
      exact .inl rfl
    · exact .inr (Nat.mul_le_mul_right _ (by omega))
  omega

end CurvePuzzle.Binary64
