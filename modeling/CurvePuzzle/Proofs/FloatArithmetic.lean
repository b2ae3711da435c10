import CurvePuzzle.Proofs.FloatRounding

/-!
# Float arithmetic on codes

The four operations give the nearest code of the exact result, with its sign.

* `amount`: a float as a multiple of the smallest positive float.
* `sum_add`, `sum_sub`: the sum and difference of finite floats.
* `stands_mul`, `stands_div`: the product and quotient, where they are defined.
* `one_mul_eq`, `neg_one_mul_eq`: products with `1` and `-1`.
* `orderKey_le_orderKey_add`, `orderKey_add_le_orderKey`: adding a number without a minus sign
  moves upwards in the order that sorts floats, adding one with a minus sign downwards.
-/

set_option autoImplicit false

namespace CurvePuzzle.Binary64

open Float.Model Float.Model.UnpackedFloat
open Decimal (roundHalfEven)

/-- A float as a multiple of the smallest positive float, if it is finite. -/
def amount (v : Float) : Int := (signOf (isNegative v)).apply (units (code v))

/-- The code nearest to a multiple of the smallest positive float, with its sign. -/
def nearestPlace (i : Int) : Int :=
  if i < 0 then -(min infinityCode (nearestCode i.natAbs 1) : Nat)
  else (min infinityCode (nearestCode i.natAbs 1) : Nat)

theorem nearestPlace_mono {i j : Int} (h : i ≤ j) : nearestPlace i ≤ nearestPlace j := by
  unfold nearestPlace
  split
  · rename_i negative
    split
    · have rise := nearestCode_mono (a := j.natAbs) (c := i.natAbs) Nat.one_pos Nat.one_pos
        (by omega)
      omega
    · omega
  · have rise := nearestCode_mono (a := i.natAbs) (c := j.natAbs) Nat.one_pos Nat.one_pos
      (by omega)
    rw [if_neg (by omega)]
    omega

theorem natAbs_apply (s : Sign) (n : Nat) : (s.apply n).natAbs = n := by
  cases s
  · exact Int.natAbs_neg n
  · rfl

theorem units_zero : units 0 = 0 := by decide

theorem units_pos {n : Nat} (h : 0 < n) : 0 < units n :=
  Nat.mul_pos (mantissa_pos h) (Nat.two_pow_pos _)

theorem nearestPlace_apply_units (s : Sign) {n : Nat} (hn : n ≤ infinityCode) :
    nearestPlace (s.apply (units n)) = s.apply n := by
  unfold nearestPlace
  rw [natAbs_apply, nearestCode_units, Nat.min_eq_right hn]
  cases s
  · show (if -(units n : Int) < 0 then -(n : Int) else n) = -(n : Int)
    by_cases zero : n = 0
    · rw [zero, units_zero]
      rfl
    · have := units_pos (Nat.pos_of_ne_zero zero)
      rw [if_pos (by omega)]
  · show (if (units n : Int) < 0 then -(n : Int) else n) = n
    rw [if_neg (by omega)]

theorem nearestPlace_amount {v : Float} (h : code v ≤ infinityCode) :
    nearestPlace (amount v) = place v := by
  rw [amount, nearestPlace_apply_units _ h, place_eq]

/-! ## Rounding whole multiples -/

theorem toNat_pack_round (s : Sign) {m : Nat} {e : Int} (pos : 0 < m) (he : -1074 ≤ e) :
    (UnpackedFloat.pack Format.binary64 (UnpackedFloat.round Format.binary64 s m e)).toNat =
      signValue s + min infinityCode (nearestCode (m * 2 ^ (e + 1074).toNat) 1) := by
  have ne : m ≠ 0 := Nat.ne_of_gt pos
  obtain ⟨t, ht⟩ : ∃ t, t = max ((m.log2 : Int) - 52 + e) (-1074) := ⟨_, rfl⟩
  obtain ⟨j, hj⟩ : ∃ j, j = (e - t).toNat := ⟨_, rfl⟩
  have lowered : UnpackedFloat.round Format.binary64 s m e =
      roundWithAccuracy Format.binary64 s (m * 2 ^ j) (e - j) .exact := by
    simp only [UnpackedFloat.round, decreaseExponent, targetExponent_eq, ← ht, ← hj,
      Nat.shiftLeft_eq]
  have log : (m * 2 ^ j).log2 = m.log2 + j := by
    have := log2_mul_pow_div (a := m) (b := 1) j Nat.one_pos (by rwa [Nat.div_one])
    rwa [Nat.div_one, Nat.div_one] at this
  have shift : (e + 1074).toNat = j + (e - j + 1074).toNat := by omega
  have none : (-(e - j + 1074)).toNat = 0 := by omega
  rw [lowered, toNat_pack_nearestCode s Nat.one_pos (handed_exact _) (by rw [log]; omega), none,
    Nat.pow_zero, Nat.mul_one, Nat.mul_assoc, ← Nat.pow_add, ← shift]

/-- The sign of an integer that is not zero. -/
def signOfInt (i : Int) : Sign := if i < 0 then .negative else .positive

theorem toNat_pack_normalize {i e : Int} (z : Sign) (ne : i ≠ 0) (he : -1074 ≤ e) :
    (UnpackedFloat.pack Format.binary64 (UnpackedFloat.normalize Format.binary64 i e z)).toNat =
      signValue (signOfInt i) +
        min infinityCode (nearestCode (i.natAbs * 2 ^ (e + 1074).toNat) 1) := by
  unfold UnpackedFloat.normalize signOfInt
  rcases Int.lt_or_gt_of_ne ne with negative | positive
  · have abs : (-i).toNat = i.natAbs := by omega
    rw [Int.compare_eq_lt.2 negative, if_pos negative]
    simp only [abs]
    exact toNat_pack_round _ (by omega) he
  · have abs : i.toNat = i.natAbs := by omega
    rw [Int.compare_eq_gt.2 positive, if_neg (by omega)]
    simp only [abs]
    exact toNat_pack_round _ (by omega) he

theorem normalize_zero (e : Int) (z : Sign) :
    UnpackedFloat.normalize Format.binary64 0 e z = .zero z := rfl

/-! ## Sums -/

theorem apply_mul (s : Sign) (n c : Nat) : s.apply (n * c : Nat) = s.apply n * c := by
  cases s
  · show -((n * c : Nat) : Int) = -(n : Int) * c
    rw [Int.natCast_mul, Int.neg_mul]
  · exact Int.natCast_mul n c

/-- The exact sum of two finite floats. -/
theorem add_decode {s t : Sign} {n k : Nat} (n0 : 0 < n) (hn : n < infinityCode) (k0 : 0 < k)
    (hk : k < infinityCode) :
    ∃ i e : Int, UnpackedFloat.add Format.binary64 (decode s n) (decode t k) =
        UnpackedFloat.normalize Format.binary64 i e .positive ∧ -1074 ≤ e ∧
      i * 2 ^ (e + 1074).toNat = s.apply (units n) + t.apply (units k) := by
  obtain ⟨e, he⟩ : ∃ e : Int, e = min ((doublings n : Int) - 1074) ((doublings k : Int) - 1074) :=
    ⟨_, rfl⟩
  obtain ⟨i, hi⟩ : ∃ i, i = ((doublings n : Int) - 1074 - e).toNat := ⟨_, rfl⟩
  obtain ⟨j, hj⟩ : ∃ j, j = ((doublings k : Int) - 1074 - e).toNat := ⟨_, rfl⟩
  refine ⟨s.apply (mantissa n * 2 ^ i : Nat) + t.apply (mantissa k * 2 ^ j : Nat), e, ?_,
    by omega, ?_⟩
  · rw [decode_finite n0 hn, decode_finite k0 hk]
    simp only [UnpackedFloat.add, decreaseExponent, ← he, ← hi, ← hj, Nat.shiftLeft_eq]
  · have power : (2 : Int) ^ (e + 1074).toNat = ((2 ^ (e + 1074).toNat : Nat) : Int) := by
      rw [Int.natCast_pow]
      rfl
    have n' : doublings n = i + (e + 1074).toNat := by omega
    have k' : doublings k = j + (e + 1074).toNat := by omega
    rw [power, Int.add_mul, ← apply_mul, ← apply_mul, Nat.mul_assoc, Nat.mul_assoc, ← Nat.pow_add,
      ← Nat.pow_add, ← n', ← k']
    rfl

/-- A sum of finite floats, by its exact value `i` and the sign of a zero sum. -/
structure Sum (v : Float) (s t : Sign) (i : Int) : Prop where
  place : place v = nearestPlace i
  code : code v = min infinityCode (nearestCode i.natAbs 1)
  sign : signOf (isNegative v) = s ∨ signOf (isNegative v) = t

theorem Sum.defined {v : Float} {s t : Sign} {i : Int} (h : Sum v s t i) :
    Binary64.code v ≤ infinityCode := by
  rw [h.code]
  exact Nat.min_le_left _ _

theorem sum_of_stands {v : Float} {s t r : Sign} {i : Int}
    (h : Stands v r (min infinityCode (nearestCode i.natAbs 1)))
    (sign : (i < 0 → r = .negative) ∧ (0 < i → r = .positive)) (choice : r = s ∨ r = t) :
    Sum v s t i := by
  refine ⟨?_, h.code, by rw [h.sign]; exact choice⟩
  rw [h.place, nearestPlace]
  split
  · rename_i negative
    rw [sign.1 negative]
    rfl
  · rcases Int.lt_or_eq_of_le (Int.not_lt.1 ‹_›) with positive | zero
    · rw [sign.2 positive]
      rfl
    · rw [← zero, Int.natAbs_zero, show nearestCode 0 1 = 0 from nearestCode_units 0]
      cases r <;> rfl

theorem signOfInt_spec (i : Int) :
    (i < 0 → signOfInt i = .negative) ∧ (0 < i → signOfInt i = .positive) := by
  unfold signOfInt
  constructor
  · intro h
    rw [if_pos h]
  · intro h
    rw [if_neg (by omega)]

/-- A sum has the sign of one of its terms. -/
theorem signOfInt_add (s t : Sign) {a : Nat} (b : Nat) (pos : 0 < a) :
    signOfInt (s.apply a + t.apply b) = s ∨ signOfInt (s.apply a + t.apply b) = t := by
  have either (i : Int) : signOfInt i = .negative ∨ signOfInt i = .positive := by
    unfold signOfInt
    split
    · exact .inl rfl
    · exact .inr rfl
  cases s <;> cases t
  · exact .inl ((signOfInt_spec _).1 (by simp only [Sign.apply]; omega))
  · exact either _
  · exact (either _).symm
  · left
    unfold signOfInt
    rw [if_neg (by simp only [Sign.apply]; omega)]

theorem stands_decode (s : Sign) {n : Nat} (hn : n ≤ infinityCode) :
    Stands (.ofModel (Float.Model.pack (decode s n))) s n := by
  have small : n < 2 ^ 63 := Nat.lt_of_le_of_lt hn (by decide)
  refine stands_of_pack small ?_
  rcases Nat.lt_or_eq_of_le hn with hn | rfl
  · rcases Nat.eq_zero_or_pos n with rfl | pos
    · exact toNat_pack_zero s
    · obtain ⟨bits, top⟩ := mantissa_bounds n
      rw [decode_finite pos hn, toNat_pack_finite (mantissa_pos pos) ⟨by omega, bits, by omega⟩]
      have parts := code_parts n
      have field : ((doublings n : Int) - 1074 + 1074).toNat = doublings n := by omega
      rw [field, parts, Nat.min_eq_right (Nat.le_of_lt hn)]
  · rw [decode_infinity]
    exact toNat_pack_infinity s

theorem apply_units_zero (s : Sign) : s.apply (units 0 : Nat) = 0 := by
  cases s <;> rfl

/-- A single float is a sum by itself. -/
theorem sum_decode {s t : Sign} (r : Sign) {n : Nat} (hn : n < infinityCode)
    (choice : r = s ∨ r = t) :
    Sum (.ofModel (Float.Model.pack (decode r n))) s t (r.apply (units n)) := by
  have stands := stands_decode r (Nat.le_of_lt hn)
  have code : min infinityCode (nearestCode (r.apply (units n)).natAbs 1) = n := by
    rw [natAbs_apply, nearestCode_units, Nat.min_eq_right (Nat.le_of_lt hn)]
  refine sum_of_stands (by rw [code]; exact stands) ?_ choice
  cases r with
  | negative =>
    refine ⟨fun _ => rfl, ?_⟩
    intro h
    have h : 0 < -(units n : Int) := h
    omega
  | positive =>
    refine ⟨fun h => ?_, fun _ => rfl⟩
    have h : (units n : Int) < 0 := h
    omega

theorem add_zero_zero (s t : Sign) :
    UnpackedFloat.add Format.binary64 (decode s 0) (decode t 0) =
      decode (if s == t then s else .positive) 0 := by
  cases s <;> cases t <;> rfl

theorem add_zero_decode (s t : Sign) {k : Nat} (k0 : 0 < k) (hk : k < infinityCode) :
    UnpackedFloat.add Format.binary64 (decode s 0) (decode t k) = decode t k := by
  rw [decode_finite k0 hk]
  rfl

theorem add_decode_zero (s t : Sign) {n : Nat} (n0 : 0 < n) (hn : n < infinityCode) :
    UnpackedFloat.add Format.binary64 (decode s n) (decode t 0) = decode s n := by
  rw [decode_finite n0 hn]
  rfl

theorem signOfInt_mul {i c : Int} (ne : i ≠ 0) (pos : 0 < c) :
    signOfInt (i * c) = signOfInt i := by
  rcases Int.lt_or_gt_of_ne ne with negative | positive
  · have product := Int.mul_neg_of_neg_of_pos negative pos
    rw [(signOfInt_spec i).1 negative, (signOfInt_spec _).1 product]
  · rw [(signOfInt_spec i).2 positive, (signOfInt_spec _).2 (Int.mul_pos positive pos)]

theorem sum_add_pos (s t : Sign) {n k : Nat} (n0 : 0 < n) (hn : n < infinityCode) (k0 : 0 < k)
    (hk : k < infinityCode) :
    Sum (.ofModel (Float.Model.pack (UnpackedFloat.add Format.binary64 (decode s n) (decode t k))))
      s t (s.apply (units n) + t.apply (units k)) := by
  obtain ⟨i, e, sum, he, value⟩ := add_decode (s := s) (t := t) n0 hn k0 hk
  have posN := units_pos n0
  rw [sum]
  by_cases ne : i = 0
  · -- the two cancel, so one of them is positive
    rw [ne, Int.zero_mul] at value
    rw [ne, normalize_zero, ← value]
    have nothing := stands_decode .positive (Nat.zero_le infinityCode)
    refine sum_of_stands (r := .positive) nothing (by omega) ?_
    cases s with
    | negative =>
      cases t with
      | negative =>
        have value : (0 : Int) = -(units n : Int) + -(units k : Int) := value
        omega
      | positive => exact .inr rfl
    | positive => exact .inl rfl
  · have abs : i.natAbs * 2 ^ (e + 1074).toNat = (i * 2 ^ (e + 1074).toNat).natAbs := by
      rw [Int.natAbs_mul, Int.natAbs_pow]
      rfl
    have power : (0 : Int) < 2 ^ (e + 1074).toNat := Int.pow_pos (by decide)
    have bits := toNat_pack_normalize .positive ne he
    rw [← signOfInt_mul ne power, abs, value] at bits
    have small {c : Nat} : min infinityCode c < 2 ^ 63 :=
      Nat.lt_of_le_of_lt (Nat.min_le_left _ _) (by decide)
    exact sum_of_stands (stands_of_pack small bits) (signOfInt_spec _) (signOfInt_add s t _ posN)

/-- The sum of two finite floats, taken apart. -/
theorem sum_add_decode (s t : Sign) {n k : Nat} (hn : n < infinityCode) (hk : k < infinityCode) :
    Sum (.ofModel (Float.Model.pack (UnpackedFloat.add Format.binary64 (decode s n) (decode t k))))
      s t (s.apply (units n) + t.apply (units k)) := by
  rcases Nat.eq_zero_or_pos n with rfl | n0
  · rw [apply_units_zero, Int.zero_add]
    rcases Nat.eq_zero_or_pos k with rfl | k0
    · rw [add_zero_zero, apply_units_zero,
        ← apply_units_zero (if s == t then s else .positive)]
      refine sum_decode _ hn ?_
      cases s <;> cases t <;> simp
    · rw [add_zero_decode s t k0 hk]
      exact sum_decode t hk (.inr rfl)
  · rcases Nat.eq_zero_or_pos k with rfl | k0
    · rw [add_decode_zero s t n0 hn, apply_units_zero, Int.add_zero]
      exact sum_decode s hn (.inl rfl)
    · exact sum_add_pos s t n0 hn k0 hk

/-- **The sum of finite floats.** -/
theorem sum_add {v w : Float} (hv : v.isFinite = true) (hw : w.isFinite = true) :
    Sum (v + w) (signOf (isNegative v)) (signOf (isNegative w)) (amount v + amount w) := by
  have sum := sum_add_decode (signOf (isNegative v)) (signOf (isNegative w))
    ((isFinite_iff v).1 hv) ((isFinite_iff w).1 hw)
  rw [← unpack_toModel, ← unpack_toModel] at sum
  exact sum

theorem neg_decode (s : Sign) (n : Nat) : (decode s n).neg = decode (-s) n := by
  unfold decode
  split
  · rfl
  split
  · rfl
  split <;> rfl

/-- Subtraction adds the negative, whatever the operands. -/
theorem unpacked_sub (a b : UnpackedFloat) :
    UnpackedFloat.sub Format.binary64 a b = UnpackedFloat.add Format.binary64 a b.neg := by
  cases a with
  | finite s m e pos =>
    cases b with
    | finite t n k pos' =>
      have negated (i : Int) : (-t).apply i = -t.apply i := by
        cases t with
        | negative => exact (Int.neg_neg i).symm
        | positive => rfl
      simp only [UnpackedFloat.sub, UnpackedFloat.add, UnpackedFloat.neg, negated,
        Int.sub_eq_add_neg]
    | _ => rfl
  | _ => cases b <;> rfl

theorem sub_decode (s t : Sign) (n k : Nat) :
    UnpackedFloat.sub Format.binary64 (decode s n) (decode t k) =
      UnpackedFloat.add Format.binary64 (decode s n) (decode (-t) k) := by
  rw [unpacked_sub, neg_decode]

/-- **The difference of finite floats.** -/
theorem sum_sub {v w : Float} (hv : v.isFinite = true) (hw : w.isFinite = true) :
    Sum (v - w) (signOf (isNegative v)) (-signOf (isNegative w)) (amount v - amount w) := by
  have finiteV := (isFinite_iff v).1 hv
  have finiteW := (isFinite_iff w).1 hw
  have sum := sum_add_decode (signOf (isNegative v)) (-signOf (isNegative w)) finiteV finiteW
  rw [← sub_decode, ← unpack_toModel, ← unpack_toModel] at sum
  have negated : (-signOf (isNegative w)).apply (units (code w)) = -amount w := by
    unfold amount
    cases isNegative w
    · rfl
    · exact (Int.neg_neg _).symm
  rw [negated] at sum
  exact sum

theorem stands_neg {v : Float} (h : code v ≤ infinityCode) :
    Stands (-v) (-signOf (isNegative v)) (code v) := by
  have stands := stands_decode (-signOf (isNegative v)) h
  rw [← neg_decode, ← unpack_toModel] at stands
  exact stands

theorem stands_abs {v : Float} (h : code v ≤ infinityCode) :
    Stands v.abs .positive (code v) := by
  have stands := stands_decode .positive h
  have abs : (decode (signOf (isNegative v)) (code v)).abs = decode .positive (code v) := by
    unfold decode
    split
    · rfl
    split
    · rfl
    split <;> rfl
  rw [← abs, ← unpack_toModel] at stands
  exact stands

theorem stands_add_infinity {v w : Float} (hv : v.isFinite = true)
    (hw : code w = infinityCode) : Stands (v + w) (signOf (isNegative w)) infinityCode := by
  have stands := stands_decode (signOf (isNegative w)) (Nat.le_refl infinityCode)
  have finite := (isFinite_iff v).1 hv
  have sum : UnpackedFloat.add Format.binary64 v.toModel.unpack w.toModel.unpack =
      decode (signOf (isNegative w)) infinityCode := by
    rw [unpack_toModel, unpack_toModel, hw, decode_infinity]
    rcases Nat.eq_zero_or_pos (code v) with zero | pos
    · rw [zero]
      rfl
    · rw [decode_finite pos finite]
      rfl
  rw [← sum] at stands
  exact stands

/-- The infinite sum of an infinite float and any other of its sign. -/
theorem stands_infinity_add {v w : Float} (hv : code v = infinityCode) (hw : code w ≤ infinityCode)
    (sign : isNegative w = isNegative v) : Stands (v + w) (signOf (isNegative v)) infinityCode := by
  have stands := stands_decode (signOf (isNegative v)) (Nat.le_refl infinityCode)
  have sum : UnpackedFloat.add Format.binary64 v.toModel.unpack w.toModel.unpack =
      decode (signOf (isNegative v)) infinityCode := by
    rw [unpack_toModel, unpack_toModel, hv, decode_infinity, sign]
    rcases Nat.lt_or_eq_of_le hw with small | infinite
    · rcases Nat.eq_zero_or_pos (code w) with zero | pos
      · rw [zero]
        rfl
      · rw [decode_finite pos small]
        rfl
    · rw [infinite, decode_infinity]
      cases isNegative v <;> rfl
  rw [← sum] at stands
  exact stands

/-- A sum of floats without minus signs is defined. -/
theorem code_add_le {v w : Float} (hv : code v ≤ infinityCode) (hw : code w ≤ infinityCode)
    (positiveV : isNegative v = false) (positiveW : isNegative w = false) :
    code (v + w) ≤ infinityCode := by
  rcases Nat.lt_or_eq_of_le hv with finiteV | infinite
  · rcases Nat.lt_or_eq_of_le hw with finiteW | infinite
    · exact (sum_add ((isFinite_iff v).2 finiteV) ((isFinite_iff w).2 finiteW)).defined
    · exact Nat.le_of_eq (stands_add_infinity ((isFinite_iff v).2 finiteV) infinite).code
  · exact Nat.le_of_eq (stands_infinity_add infinite hw (positiveW.trans positiveV.symm)).code

/-- Turning a difference around changes no more than its sign. -/
theorem code_sub_comm {v w : Float} (hv : v.isFinite = true) (hw : w.isFinite = true) :
    code (v - w) = code (w - v) := by
  have swap : (amount v - amount w).natAbs = (amount w - amount v).natAbs := by omega
  rw [(sum_sub hv hw).code, (sum_sub hw hv).code, swap]

/-! ## Moving upwards and downwards -/

theorem amount_nonneg {v : Float} (h : isNegative v = false) : 0 ≤ amount v := by
  rw [amount, h]
  exact Int.natCast_nonneg _

theorem amount_nonpos {v : Float} (h : isNegative v = true) : amount v ≤ 0 := by
  rw [amount, h]
  exact Int.neg_nonpos_of_nonneg (Int.natCast_nonneg _)

theorem orderKey_le {v w : Float} (le : place v ≤ place w)
    (sign : isNegative w = true → place v = place w → isNegative v = true) :
    orderKey v ≤ orderKey w := by
  rw [orderKey_eq, orderKey_eq]
  cases negativeW : isNegative w with
  | false =>
    rw [if_neg Bool.false_ne_true]
    split <;> omega
  | true =>
    by_cases same : place v = place w
    · apply Int.le_of_eq
      rw [sign negativeW same, same]
    · rw [if_pos rfl]
      split <;> omega

theorem place_le_of_orderKey_le {v w : Float} (h : orderKey v ≤ orderKey w) :
    place v ≤ place w := by
  rw [orderKey_eq, orderKey_eq] at h
  unfold place at *
  cases hv : isNegative v <;> cases hw : isNegative w <;>
    simp only [hv, hw, if_true, Bool.false_eq_true, if_false] at h ⊢ <;> omega

/-- **Adding a number without a minus sign** moves a finite float upwards, or leaves it. -/
theorem orderKey_le_orderKey_add {x s : Float} (hx : x.isFinite = true)
    (hs : code s ≤ infinityCode) (positive : isNegative s = false) :
    code (x + s) ≤ infinityCode ∧ orderKey x ≤ orderKey (x + s) := by
  have finite := (isFinite_iff x).1 hx
  rcases Nat.lt_or_eq_of_le hs with small | infinite
  · have sum := sum_add hx ((isFinite_iff s).2 small)
    have rise : place x ≤ place (x + s) := by
      rw [sum.place, ← nearestPlace_amount (Nat.le_of_lt finite)]
      exact nearestPlace_mono (by have := amount_nonneg positive; omega)
    refine ⟨sum.defined, orderKey_le rise ?_⟩
    intro negative _
    rcases sum.sign with sign | sign
    · rw [← signOf_inj sign]
      exact negative
    · rw [signOf_inj sign, positive] at negative
      cases negative
  · have stands := stands_add_infinity hx infinite
    have top := stands.place
    rw [positive] at top
    have below : place x ≤ infinityCode := by
      unfold place
      split <;> omega
    refine ⟨Nat.le_of_eq stands.code, orderKey_le (by rw [top]; exact below) ?_⟩
    intro negative _
    rw [signOf_inj stands.sign, positive] at negative
    cases negative

/-- **Adding a number with a minus sign** moves a finite float downwards, or leaves it. -/
theorem orderKey_add_le_orderKey {x s : Float} (hx : x.isFinite = true)
    (hs : code s ≤ infinityCode) (negative : isNegative s = true) :
    code (x + s) ≤ infinityCode ∧ orderKey (x + s) ≤ orderKey x := by
  have finite := (isFinite_iff x).1 hx
  rcases Nat.lt_or_eq_of_le hs with small | infinite
  · have sum := sum_add hx ((isFinite_iff s).2 small)
    have fall : place (x + s) ≤ place x := by
      rw [sum.place, ← nearestPlace_amount (Nat.le_of_lt finite)]
      exact nearestPlace_mono (by have := amount_nonpos negative; omega)
    refine ⟨sum.defined, orderKey_le fall ?_⟩
    intro negativeX _
    rcases sum.sign with sign | sign
    · rw [signOf_inj sign]
      exact negativeX
    · rw [signOf_inj sign]
      exact negative
  · have stands := stands_add_infinity hx infinite
    have bottom := stands.place
    rw [negative] at bottom
    have bottom : place (x + s) = -(infinityCode : Int) := bottom
    have above : -(infinityCode : Int) ≤ place x := by
      unfold place
      split <;> omega
    refine ⟨Nat.le_of_eq stands.code, orderKey_le (by rw [bottom]; exact above) ?_⟩
    intro _ _
    rw [signOf_inj stands.sign]
    exact negative

/-! ## Products and quotients -/

theorem nearestCode_zero {b : Nat} (hb : 0 < b) : nearestCode 0 b = 0 := by
  have same := nearestCode_mul (a := 0) Nat.one_pos hb
  rw [Nat.zero_mul, Nat.one_mul] at same
  rw [same]
  exact nearestCode_units 0

/-- The smallest positive float is `2 ^ -unitExponent`. -/
def unitExponent : Nat := 1074

/-- The code of a product, unless one factor is zero and the other infinite. -/
def productCode (n k : Nat) : Nat :=
  if n = infinityCode ∨ k = infinityCode then infinityCode
  else min infinityCode (nearestCode (units n * units k) (2 ^ unitExponent))

theorem productCode_le (n k : Nat) : productCode n k ≤ infinityCode := by
  unfold productCode
  split
  · exact Nat.le_refl _
  · exact Nat.min_le_left _ _

/-- Only the difference of the powers of two in a quotient counts. -/
theorem nearestCode_shift {a b i j k l : Nat} (hb : 0 < b) (same : i + l = k + j) :
    nearestCode (a * 2 ^ i) (b * 2 ^ j) = nearestCode (a * 2 ^ k) (b * 2 ^ l) := by
  have left := nearestCode_mul (a := a * 2 ^ i) (c := 2 ^ l)
    (Nat.mul_pos hb (Nat.two_pow_pos j)) (Nat.two_pow_pos _)
  have right := nearestCode_mul (a := a * 2 ^ k) (c := 2 ^ j)
    (Nat.mul_pos hb (Nat.two_pow_pos l)) (Nat.two_pow_pos _)
  rw [Nat.mul_assoc, ← Nat.pow_add, same] at left
  rw [Nat.mul_assoc, ← Nat.pow_add, Nat.mul_right_comm] at right
  rw [← left, ← right]

/-- Operands with 53 bits, or at the lowest exponent, have a product that is not rounded up to a
lower exponent. -/
theorem mul_target {n k : Nat} (n0 : 0 < n) (k0 : 0 < k) :
    ((doublings n : Int) - 1074) + ((doublings k : Int) - 1074) ≤
      max (((mantissa n * mantissa k).log2 : Int) - 52 +
        (((doublings n : Int) - 1074) + ((doublings k : Int) - 1074))) (-1074) := by
  have posN := mantissa_pos n0
  have posK := mantissa_pos k0
  have ne : mantissa n * mantissa k ≠ 0 := Nat.ne_of_gt (Nat.mul_pos posN posK)
  have wide (h : 2 ^ 52 ≤ mantissa n * mantissa k) : 52 ≤ (mantissa n * mantissa k).log2 :=
    (Nat.le_log2 ne).2 h
  rcases (mantissa_bounds n).2 with zeroN | topN
  · rcases (mantissa_bounds k).2 with zeroK | topK
    · omega
    · have := wide (Nat.le_trans topK (Nat.le_mul_of_pos_left _ posN))
      omega
  · have := wide (Nat.le_trans topN (Nat.le_mul_of_pos_right _ posK))
    omega

theorem mul_infinity (s t : Sign) {k : Nat} (k0 : 0 < k) (hk : k ≤ infinityCode) :
    UnpackedFloat.mul Format.binary64 (decode s infinityCode) (decode t k) =
        decode (s * t) infinityCode ∧
      UnpackedFloat.mul Format.binary64 (decode t k) (decode s infinityCode) =
        decode (t * s) infinityCode := by
  rcases Nat.lt_or_eq_of_le hk with hk | rfl
  · rw [decode_infinity, decode_infinity, decode_infinity, decode_finite k0 hk]
    exact ⟨rfl, rfl⟩
  · rw [decode_infinity, decode_infinity, decode_infinity, decode_infinity]
    exact ⟨rfl, rfl⟩

theorem mul_zero_decode (s t : Sign) {k : Nat} (hk : k < infinityCode) :
    UnpackedFloat.mul Format.binary64 (decode s 0) (decode t k) = decode (s * t) 0 ∧
      UnpackedFloat.mul Format.binary64 (decode t k) (decode s 0) = decode (t * s) 0 := by
  rcases Nat.eq_zero_or_pos k with rfl | k0
  · exact ⟨rfl, rfl⟩
  · rw [decode_finite k0 hk]
    exact ⟨rfl, rfl⟩

/-- The exact product of two finite floats, rounded. -/
theorem stands_mul_pos (s t : Sign) {n k : Nat} (n0 : 0 < n) (hn : n < infinityCode) (k0 : 0 < k)
    (hk : k < infinityCode) :
    Stands
      (.ofModel (Float.Model.pack (UnpackedFloat.mul Format.binary64 (decode s n) (decode t k))))
      (s * t) (min infinityCode (nearestCode (units n * units k) (2 ^ unitExponent))) := by
  have bits := toNat_pack_nearestCode (s * t) Nat.one_pos
    (handed_exact (mantissa n * mantissa k)) (mul_target n0 k0)
  have shiftUp : ((doublings n : Int) - 1074 + ((doublings k : Int) - 1074) + 1074).toNat =
      doublings n + doublings k - unitExponent := by
    unfold unitExponent
    omega
  have shiftDown : (-((doublings n : Int) - 1074 + ((doublings k : Int) - 1074) + 1074)).toNat =
      unitExponent - (doublings n + doublings k) := by
    unfold unitExponent
    omega
  have exact : mantissa n * mantissa k * 2 ^ (doublings n + doublings k) = units n * units k := by
    unfold units
    rw [Nat.pow_add, Nat.mul_mul_mul_comm]
  rw [shiftUp, shiftDown, nearestCode_shift (k := doublings n + doublings k)
    (l := unitExponent) Nat.one_pos (by omega), exact, Nat.one_mul] at bits
  rw [decode_finite n0 hn, decode_finite k0 hk]
  exact stands_of_pack (Nat.lt_of_le_of_lt (Nat.min_le_left _ _) (by decide)) bits

theorem productCode_of_lt {n k : Nat} (hn : n < infinityCode) (hk : k < infinityCode) :
    productCode n k = min infinityCode (nearestCode (units n * units k) (2 ^ unitExponent)) := by
  rw [productCode, if_neg (by omega)]

theorem stands_mul_decode (s t : Sign) {n k : Nat} (hn : n ≤ infinityCode)
    (hk : k ≤ infinityCode) (left : n = infinityCode → 0 < k) (right : k = infinityCode → 0 < n) :
    Stands
      (.ofModel (Float.Model.pack (UnpackedFloat.mul Format.binary64 (decode s n) (decode t k))))
      (s * t) (productCode n k) := by
  have infinite := stands_decode (s * t) (Nat.le_refl infinityCode)
  have zero := stands_decode (s * t) (Nat.zero_le infinityCode)
  rcases Nat.lt_or_eq_of_le hn with smallN | rfl
  · rcases Nat.lt_or_eq_of_le hk with smallK | rfl
    · rw [productCode_of_lt smallN smallK]
      rcases Nat.eq_zero_or_pos n with rfl | n0
      · rw [(mul_zero_decode s t smallK).1, units_zero, Nat.zero_mul,
          nearestCode_zero (Nat.two_pow_pos _), Nat.min_zero]
        exact zero
      · rcases Nat.eq_zero_or_pos k with rfl | k0
        · rw [(mul_zero_decode t s smallN).2, units_zero, Nat.mul_zero,
            nearestCode_zero (Nat.two_pow_pos _), Nat.min_zero]
          exact zero
        · exact stands_mul_pos s t n0 smallN k0 smallK
    · rw [productCode, if_pos (.inr rfl), (mul_infinity t s (right rfl) hn).2]
      exact infinite
  · rw [productCode, if_pos (.inl rfl), (mul_infinity s t (left rfl) hk).1]
    exact infinite

/-- **The product** of two floats, unless one is zero and the other infinite. -/
theorem stands_mul {v w : Float} (hv : code v ≤ infinityCode) (hw : code w ≤ infinityCode)
    (left : code v = infinityCode → 0 < code w) (right : code w = infinityCode → 0 < code v) :
    Stands (v * w) (signOf (isNegative v) * signOf (isNegative w))
      (productCode (code v) (code w)) := by
  have stands := stands_mul_decode (signOf (isNegative v)) (signOf (isNegative w)) hv hw left right
  rw [← unpack_toModel, ← unpack_toModel] at stands
  exact stands

/-- A square is defined, has no minus sign, and is that of the negated number too. -/
theorem stands_square {v : Float} (hv : code v ≤ infinityCode) :
    Stands (v * v) .positive (productCode (code v) (code v)) := by
  have pos := infinityCode_pos
  have stands := stands_mul hv hv (by omega) (by omega)
  have square : signOf (isNegative v) * signOf (isNegative v) = .positive := by
    cases isNegative v <;> rfl
  rwa [square] at stands

/-- A quotient is computed with enough bits before it is rounded. -/
theorem div_target {m₁ m₂ : Nat} {e te : Int} (h₁ : 0 < m₁) (h₂ : 0 < m₂)
    (hte : te = min e (max ((m₁.log2 : Int) - m₂.log2 - 53 + e) (-1074))) :
    te ≤ max (((m₁ * 2 ^ (e - te).toNat / m₂).log2 : Int) - 52 + te) (-1074) := by
  have log : m₁.log2 + (e - te).toNat ≤ (m₁ * 2 ^ (e - te).toNat / m₂).log2 + m₂.log2 + 1 := by
    have up : 2 ^ (m₁.log2 + (e - te).toNat) ≤ m₁ * 2 ^ (e - te).toNat := by
      rw [Nat.pow_add]
      exact Nat.mul_le_mul_right _ (Nat.log2_self_le (Nat.ne_of_gt h₁))
    by_cases zero : m₁ * 2 ^ (e - te).toNat / m₂ = 0
    · have small : m₁ * 2 ^ (e - te).toNat < m₂ := by
        rcases Nat.div_eq_zero_iff.1 zero with none | small
        · omega
        · exact small
      have := (Nat.le_log2 (Nat.ne_of_gt h₂)).2 (Nat.le_trans up (Nat.le_of_lt small))
      omega
    · have down : m₁ * 2 ^ (e - te).toNat <
          2 ^ ((m₁ * 2 ^ (e - te).toNat / m₂).log2 + 1) * 2 ^ (m₂.log2 + 1) :=
        calc m₁ * 2 ^ (e - te).toNat
            < 2 ^ ((m₁ * 2 ^ (e - te).toNat / m₂).log2 + 1) * m₂ :=
              (Nat.div_lt_iff_lt_mul h₂).1 Nat.lt_log2_self
          _ ≤ _ := Nat.mul_le_mul_left _ (Nat.le_of_lt Nat.lt_log2_self)
      rw [← Nat.pow_add] at down
      have := (Nat.pow_lt_pow_iff_right (by decide : 1 < 2)).1 (Nat.lt_of_le_of_lt up down)
      omega
  omega

theorem toNat_pack_div (s t : Sign) {m₁ m₂ : Nat} {e f : Int} (h₁ : 0 < m₁) (h₂ : 0 < m₂) :
    (UnpackedFloat.pack Format.binary64 (UnpackedFloat.div Format.binary64
      (.finite s m₁ e h₁) (.finite t m₂ f h₂))).toNat =
        signValue (s / t) + min infinityCode (nearestCode
          (m₁ * 2 ^ (e - f + 1074).toNat) (m₂ * 2 ^ (-(e - f + 1074)).toNat)) := by
  obtain ⟨te, hte⟩ : ∃ te, te = min (e - f)
      (max ((m₁.log2 : Int) - m₂.log2 - 53 + (e - f)) (-1074)) := ⟨_, rfl⟩
  have target : min (e - f) (Format.binary64.targetExponent
      (totalExponent m₁ e - totalExponent m₂ f)) = te := by
    rw [targetExponent_binary64, totalExponent, totalExponent]
    omega
  have rounded : UnpackedFloat.div Format.binary64 (.finite s m₁ e h₁) (.finite t m₂ f h₂) =
      roundWithAccuracy Format.binary64 (s / t) (m₁ * 2 ^ (e - f - te).toNat / m₂) te
        (accuracyOfFraction (m₁ * 2 ^ (e - f - te).toNat % m₂) m₂) := by
    simp only [UnpackedFloat.div, divCore, target, Nat.shiftLeft_eq]
  rw [rounded, toNat_pack_nearestCode _ h₂ (handed_fraction _ h₂) (div_target h₁ h₂ hte),
    Nat.mul_assoc, ← Nat.pow_add, nearestCode_shift (k := (e - f + 1074).toNat)
      (l := (-(e - f + 1074)).toNat) h₂ (by omega)]

/-- The code of a quotient by a finite number other than zero. -/
def quotientCode (n k : Nat) : Nat :=
  if n = infinityCode then infinityCode
  else min infinityCode (nearestCode (units n * 2 ^ unitExponent) (units k))

theorem quotientCode_le (n k : Nat) : quotientCode n k ≤ infinityCode := by
  unfold quotientCode
  split
  · exact Nat.le_refl _
  · exact Nat.min_le_left _ _

/-- **The quotient** of a float by a finite one other than zero. -/
theorem stands_div {v w : Float} (hv : code v ≤ infinityCode) (w0 : 0 < code w)
    (hw : code w < infinityCode) :
    Stands (v / w) (signOf (isNegative v) / signOf (isNegative w))
      (quotientCode (code v) (code w)) := by
  have infinite := stands_decode (signOf (isNegative v) / signOf (isNegative w))
    (Nat.le_refl infinityCode)
  have zero := stands_decode (signOf (isNegative v) / signOf (isNegative w))
    (Nat.zero_le infinityCode)
  have divided : v / w = .ofModel (Float.Model.pack (UnpackedFloat.div Format.binary64
      (decode (signOf (isNegative v)) (code v)) (decode (signOf (isNegative w)) (code w)))) := by
    rw [← unpack_toModel, ← unpack_toModel]
    rfl
  rw [divided, decode_finite w0 hw]
  unfold quotientCode
  rcases Nat.lt_or_eq_of_le hv with smallV | top
  · rw [if_neg (Nat.ne_of_lt smallV)]
    rcases Nat.eq_zero_or_pos (code v) with none | v0
    · rw [none, units_zero, Nat.zero_mul, nearestCode_zero (units_pos w0), Nat.min_zero]
      exact zero
    · rw [decode_finite v0 smallV]
      have bits := toNat_pack_div (signOf (isNegative v)) (signOf (isNegative w))
        (e := (doublings (code v) : Int) - 1074) (f := (doublings (code w) : Int) - 1074)
        (mantissa_pos v0) (mantissa_pos w0)
      rw [nearestCode_shift (k := doublings (code v) + unitExponent) (l := doublings (code w))
        (mantissa_pos w0) (by unfold unitExponent; omega), Nat.pow_add, ← Nat.mul_assoc] at bits
      exact stands_of_pack (Nat.lt_of_le_of_lt (Nat.min_le_left _ _) (by decide)) bits
  · rw [top, if_pos rfl, decode_infinity]
    exact infinite

/-! ## One -/

theorem one_spec : code 1.0 < infinityCode ∧ isNegative 1.0 = false ∧
    code (-1.0) = code 1.0 ∧ isNegative (-1.0) = true := by
  decide

theorem units_code_one : units (code 1.0) = 2 ^ unitExponent := by
  have top : mantissa (code 1.0) = 2 ^ 52 := by decide
  have doubled : doublings (code 1.0) = 1022 := by decide
  have exponent : unitExponent = 52 + 1022 := rfl
  rw [units, top, doubled, exponent, Nat.pow_add]

theorem productCode_code_one {n : Nat} (hn : n ≤ infinityCode) : productCode (code 1.0) n = n := by
  rcases Nat.lt_or_eq_of_le hn with small | rfl
  · have same := nearestCode_mul (a := units n) (b := 1) (c := 2 ^ unitExponent) Nat.one_pos
      (Nat.two_pow_pos _)
    rw [productCode_of_lt one_spec.1 small, units_code_one, Nat.mul_comm]
    rw [Nat.one_mul, nearestCode_units] at same
    rw [same, Nat.min_eq_right hn]
  · rw [productCode, if_pos (.inr rfl)]

/-- A product with a number of the magnitude of one. -/
theorem stands_mul_of_code_eq {c v : Float} (one : code c = code 1.0)
    (h : code v ≤ infinityCode) :
    Stands (c * v) (signOf (isNegative c) * signOf (isNegative v)) (code v) := by
  have finite := one_spec.1
  have pos : 0 < code 1.0 := by decide
  have product := stands_mul (v := c) (w := v) (by omega) h (by omega) (by omega)
  rwa [one, productCode_code_one h] at product

theorem one_mul_eq {v : Float} (h : code v ≤ infinityCode) : 1.0 * v = v := by
  have product := stands_mul_of_code_eq rfl h
  refine eq_of_code_eq (signOf_inj ?_) product.code
  rw [product.sign, one_spec.2.1]
  cases isNegative v <;> rfl

theorem neg_one_mul_eq {v : Float} (h : code v ≤ infinityCode) : -1.0 * v = -v := by
  obtain ⟨-, -, one, negative⟩ := one_spec
  have product := stands_mul_of_code_eq one h
  have negated := stands_neg h
  refine eq_of_code_eq (signOf_inj ?_) (product.code.trans negated.code.symm)
  rw [product.sign, negated.sign, negative]
  cases isNegative v <;> rfl

end CurvePuzzle.Binary64
