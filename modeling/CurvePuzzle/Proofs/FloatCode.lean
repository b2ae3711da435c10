import Mathlib
import CurvePuzzle.Scalar

/-!
# Floats as codes

The bit pattern of a float is a sign bit and a code, and the codes count the magnitudes in rising
order: `0` is zero, `infinityCode` is infinity, and what lies above is undefined.

* `code` and `place`: the code of a float, and the code with its sign as an integer.
* `unpack_eq_decode`: what the float operations see of a float is decided by its sign and code.
* `le_iff`, `lt_iff`: comparing floats is comparing places.
-/

set_option autoImplicit false

namespace CurvePuzzle.Binary64

open Float.Model Float.Model.UnpackedFloat

/-- The code of infinity. -/
def infinityCode : Nat := 2047 * 2 ^ 52

/-- The bit pattern of a float without its sign bit. -/
def code (v : Float) : Nat := v.toBits.toNat % 2 ^ 63

/-- The code of a float, negated with the float. -/
def place (v : Float) : Int := if isNegative v then -(code v : Int) else code v

/-- How often the unit of the smallest floats is doubled to give the unit of this code. -/
def doublings (n : Nat) : Nat := n / 2 ^ 52 - 1

/-- The mantissa of a code, with its implicit top bit. -/
def mantissa (n : Nat) : Nat := n - doublings n * 2 ^ 52

/-- The sign of a float, by its sign bit. -/
def signOf (negative : Bool) : Sign := if negative then .negative else .positive

/-- The float that a sign and a code stand for, taken apart. -/
def decode (s : Sign) (n : Nat) : UnpackedFloat :=
  if infinityCode < n then .notANumber
  else if n = infinityCode then .infinity s
  else if h : n = 0 then .zero s
  else .finite s (mantissa n) ((doublings n : Int) - 1074)
    (by unfold mantissa doublings; omega)

/-! ## Bits -/

theorem toBits_lt (v : Float) : v.toBits.toNat < 2 ^ 64 := v.toBits.toNat_lt

theorem isNegative_iff (v : Float) : isNegative v = true ↔ 2 ^ 63 ≤ v.toBits.toNat := by
  have bound := toBits_lt v
  unfold isNegative
  rw [beq_iff_eq, ← UInt64.toNat_inj, UInt64.toNat_shiftRight, Nat.shiftRight_eq_div_pow]
  show v.toBits.toNat / 2 ^ 63 = 1 ↔ _
  omega

theorem toBits_eq (v : Float) :
    v.toBits.toNat = (if isNegative v then 2 ^ 63 else 0) + code v := by
  have bound := toBits_lt v
  unfold code
  split
  · rename_i h
    rw [isNegative_iff] at h
    omega
  · rename_i h
    rw [isNegative_iff] at h
    omega

theorem code_lt (v : Float) : code v < 2 ^ 63 := Nat.mod_lt _ (by decide)

/-- A float is known by its sign bit and its code. -/
theorem eq_of_code_eq {v w : Float} (sign : isNegative v = isNegative w)
    (same : code v = code w) : v = w := by
  rw [← Float.toBits_inj, ← UInt64.toNat_inj, toBits_eq, toBits_eq, sign, same]

/-! ## Taking apart -/

theorem toNat_unpackMantissa (b : BitVec Format.binary64.numBits) :
    (unpackMantissa b).toNat = b.toNat % 2 ^ 52 := by
  simp [unpackMantissa]

theorem toNat_unpackExponent (b : BitVec Format.binary64.numBits) :
    (unpackExponent b).toNat = b.toNat / 2 ^ 52 % 2 ^ 11 := by
  simp [unpackExponent, Nat.shiftRight_eq_div_pow]

theorem toNat_unpackSign (b : BitVec Format.binary64.numBits) :
    (unpackSign b).toNat = b.toNat / 2 ^ 63 % 2 := by
  simp [unpackSign, Nat.shiftRight_eq_div_pow]

theorem ofBitVec_unpackSign (b : BitVec Format.binary64.numBits) :
    Sign.ofBitVec (unpackSign b) = signOf (decide (2 ^ 63 ≤ b.toNat)) := by
  have bound : b.toNat < 2 ^ 64 := b.isLt
  have bit := toNat_unpackSign b
  unfold Sign.ofBitVec signOf
  by_cases h : 2 ^ 63 ≤ b.toNat
  · have one : ¬unpackSign b = 0#1 := by
      intro e
      rw [e, BitVec.toNat_zero] at bit
      omega
    rw [if_neg one, decide_eq_true h]
    rfl
  · have zero : unpackSign b = 0#1 := by
      apply BitVec.eq_of_toNat_eq
      rw [bit, BitVec.toNat_zero]
      omega
    rw [if_pos zero, decide_eq_false h]
    rfl

theorem unpackExponent_eq_iff {b : BitVec Format.binary64.numBits} {e : BitVec 11} :
    unpackExponent b = e ↔ b.toNat / 2 ^ 52 % 2 ^ 11 = e.toNat := by
  rw [← toNat_unpackExponent]
  exact BitVec.toNat_inj.symm

theorem unpackMantissa_eq_zero_iff {b : BitVec Format.binary64.numBits} :
    unpackMantissa b = 0#52 ↔ b.toNat % 2 ^ 52 = 0 := by
  rw [← toNat_unpackMantissa]
  exact BitVec.toNat_inj.symm

theorem toNat_implicit_append (m : BitVec 52) : (1#1 ++ m).toNat = 2 ^ 52 + m.toNat := by
  rw [BitVec.toNat_append, Nat.shiftLeft_eq, Nat.or_comm, BitVec.toNat_ofNat,
    Nat.or_two_pow_eq_add_of_lt m.isLt]
  omega

theorem finite_congr {s : Sign} {m m' : Nat} {e e' : Int} {h : 0 < m} {h' : 0 < m'}
    (hm : m = m') (he : e = e') : UnpackedFloat.finite s m e h = .finite s m' e' h' := by
  subst hm he
  rfl

/-- **What a bit pattern stands for** is decided by its sign bit and its code. -/
theorem unpack_eq_decode (b : BitVec Format.binary64.numBits) :
    UnpackedFloat.unpack Format.binary64 b =
      decode (signOf (decide (2 ^ 63 ≤ b.toNat))) (b.toNat % 2 ^ 63) := by
  have bound : b.toNat < 2 ^ 64 := b.isLt
  have bias : Format.binary64.exponentBias = 1023 := rfl
  have inf : infinityCode = 2047 * 2 ^ 52 := rfl
  simp only [UnpackedFloat.unpack, decode, ofBitVec_unpackSign]
  by_cases top : b.toNat / 2 ^ 52 % 2 ^ 11 = 2047
  · have topField : unpackExponent b = -1#11 := unpackExponent_eq_iff.2 top
    rw [if_pos topField]
    by_cases zero : b.toNat % 2 ^ 52 = 0
    · rw [if_pos (unpackMantissa_eq_zero_iff.2 zero), if_neg (by omega), if_pos (by omega)]
    · rw [if_neg (mt unpackMantissa_eq_zero_iff.1 zero), if_pos (by omega)]
  have topField : ¬unpackExponent b = -1#11 := fun h => top (unpackExponent_eq_iff.1 h)
  have defined : ¬infinityCode < b.toNat % 2 ^ 63 := by omega
  have finite : ¬b.toNat % 2 ^ 63 = infinityCode := by omega
  rw [if_neg topField, if_neg defined, if_neg finite]
  by_cases bottom : b.toNat / 2 ^ 52 % 2 ^ 11 = 0
  · have bottomField : unpackExponent b = 0#11 := unpackExponent_eq_iff.2 bottom
    rw [if_pos bottomField]
    by_cases zero : b.toNat % 2 ^ 52 = 0
    · rw [dif_pos (unpackMantissa_eq_zero_iff.2 zero), dif_pos (by omega)]
    · rw [dif_neg (mt unpackMantissa_eq_zero_iff.1 zero), dif_neg (by omega)]
      refine finite_congr ?_ ?_
      · rw [toNat_unpackMantissa, mantissa, doublings]
        omega
      · rw [toNat_unpackExponent, bias, doublings]
        omega
  · have bottomField : ¬unpackExponent b = 0#11 := fun h => bottom (unpackExponent_eq_iff.1 h)
    rw [if_neg bottomField, dif_neg (by omega)]
    refine finite_congr ?_ ?_
    · rw [toNat_implicit_append, toNat_unpackMantissa, mantissa, doublings]
      omega
    · rw [toNat_unpackExponent, bias, doublings]
      omega

theorem unpack_toModel (v : Float) :
    v.toModel.unpack = decode (signOf (isNegative v)) (code v) := by
  have sign : decide (2 ^ 63 ≤ v.toBits.toNat) = isNegative v := by
    rw [Bool.eq_iff_iff, decide_eq_true_iff, isNegative_iff]
  rw [← sign]
  exact unpack_eq_decode _

/-! ## Putting together -/

/-- The bit of a sign. -/
def signValue : Sign → Nat
  | .negative => 2 ^ 63
  | .positive => 0

theorem toNat_packComponents (s : Sign) (e : BitVec 11) (m : BitVec 52) :
    (packComponents Format.binary64 s e m).toNat = signValue s + (e.toNat * 2 ^ 52 + m.toNat) := by
  have outer : (packComponents Format.binary64 s e m).toNat =
      ((s.toBitVec ++ e).toNat <<< 52) ||| m.toNat := BitVec.toNat_append ..
  have inner : (s.toBitVec ++ e).toNat = s.toBitVec.toNat * 2 ^ 11 + e.toNat := by
    rw [BitVec.toNat_append, ← Nat.shiftLeft_add_eq_or_of_lt e.isLt, Nat.shiftLeft_eq]
  rw [outer, ← Nat.shiftLeft_add_eq_or_of_lt m.isLt, Nat.shiftLeft_eq, inner]
  cases s
  · show (1 * 2 ^ 11 + e.toNat) * 2 ^ 52 + m.toNat = 2 ^ 63 + (e.toNat * 2 ^ 52 + m.toNat)
    omega
  · show (0 * 2 ^ 11 + e.toNat) * 2 ^ 52 + m.toNat = 0 + (e.toNat * 2 ^ 52 + m.toNat)
    omega

theorem toNat_packComponents_ofNat (s : Sign) (e m : Nat) :
    (packComponents Format.binary64 s (BitVec.ofNat 11 e) (BitVec.ofNat 52 m)).toNat =
      signValue s + (e % 2 ^ 11 * 2 ^ 52 + m % 2 ^ 52) := by
  rw [toNat_packComponents, BitVec.toNat_ofNat, BitVec.toNat_ofNat]

/-- Is this the one way to write the float with a mantissa of at most 53 bits? -/
structure Canonical (m : Nat) (e : Int) : Prop where
  low : -1074 ≤ e
  bits : m < 2 ^ 53
  top : e = -1074 ∨ 2 ^ 52 ≤ m

theorem normal_code {k m : Nat} (small : ¬2 ^ 11 ≤ k + 1 + 1) (normal : 2 ^ 52 ≤ m)
    (bits : m < 2 ^ 53) :
    (k + 1) % 2 ^ 11 * 2 ^ 52 + m % 2 ^ 52 = min infinityCode (k * 2 ^ 52 + m) := by
  unfold infinityCode
  omega

/-- **What is packed**: the code counts mantissas through all exponents. -/
theorem toNat_pack_finite {s : Sign} {m : Nat} {e : Int} (h : 0 < m) (c : Canonical m e) :
    (UnpackedFloat.pack Format.binary64 (.finite s m e h)).toNat =
      signValue s + min infinityCode ((e + 1074).toNat * 2 ^ 52 + m) := by
  obtain ⟨low, bits, top⟩ := c
  have bias : Format.binary64.exponentBias = 1023 := rfl
  have inf : infinityCode = 2047 * 2 ^ 52 := rfl
  have len : Format.binary64.mantissaBits = 53 := rfl
  simp only [UnpackedFloat.pack, bias, len]
  by_cases large : 2 ^ 11 ≤ (e + (1023 : Nat) + (52 : Nat)).toNat + 1
  · rw [if_pos large, packedInfinity]
    refine (toNat_packComponents s _ _).trans ?_
    have top : (-1#11 : BitVec 11).toNat = 2047 := rfl
    have none : (0 : BitVec 52).toNat = 0 := rfl
    rw [top, none]
    omega
  rw [if_neg large]
  have field : (e + (1023 : Nat) + (52 : Nat)).toNat = (e + 1074).toNat + 1 := by omega
  rw [field] at large ⊢
  by_cases normal : 2 ^ 52 ≤ m
  · have log : m.log2 = 52 := (Nat.log2_eq_iff (by omega)).2 ⟨normal, bits⟩
    rw [if_pos (by rw [log])]
    exact (toNat_packComponents_ofNat s _ _).trans
      (congrArg (signValue s + ·) (normal_code large normal bits))
  · have log : m.log2 < 52 := (Nat.log2_lt (by omega)).2 (by omega)
    have sub : ¬m.log2 + 1 = 53 := by omega
    have bottom : (e + 1074).toNat = 0 := by omega
    rw [if_neg sub, bottom]
    refine (toNat_packComponents_ofNat s 0 _).trans ?_
    omega

theorem toNat_pack_zero (s : Sign) :
    (UnpackedFloat.pack Format.binary64 (.zero s)).toNat = signValue s + 0 :=
  toNat_packComponents s 0 0

theorem toNat_pack_infinity (s : Sign) :
    (UnpackedFloat.pack Format.binary64 (.infinity s)).toNat = signValue s + infinityCode :=
  toNat_packComponents s (-1#11) 0

theorem signOf_inj {b c : Bool} (h : signOf b = signOf c) : b = c := by
  cases b <;> cases c <;> first | rfl | cases h

/-- A sign and a code make up a float. -/
structure Stands (v : Float) (s : Sign) (n : Nat) : Prop where
  sign : signOf (isNegative v) = s
  code : code v = n

theorem Stands.place {v : Float} {s : Sign} {n : Nat} (h : Stands v s n) :
    place v = s.apply n := by
  rw [← h.sign, ← h.code, Binary64.place]
  cases isNegative v <;> rfl

theorem stands_of_pack {u : UnpackedFloat} {s : Sign} {n : Nat} (small : n < 2 ^ 63)
    (h : (UnpackedFloat.pack Format.binary64 u).toNat = signValue s + n) :
    Stands (.ofModel (Float.Model.pack u)) s n := by
  have bits : (Float.ofModel (Float.Model.pack u)).toBits.toNat = signValue s + n := h
  constructor
  · cases sign : isNegative (Float.ofModel (Float.Model.pack u)) with
    | true =>
      rw [isNegative_iff, bits] at sign
      cases s
      · rfl
      · simp only [signValue] at sign
        omega
    | false =>
      rw [← Bool.not_eq_true, isNegative_iff, bits] at sign
      cases s
      · simp only [signValue] at sign
        omega
      · rfl
  · rw [Binary64.code, bits]
    cases s <;> simp only [signValue] <;> omega

/-! ## Classes -/

theorem isNaN_iff (v : Float) : v.isNaN = true ↔ infinityCode < code v := by
  have unpacked : v.isNaN = (decode (signOf (isNegative v)) (code v)).isNaN := by
    rw [← unpack_toModel]
    rfl
  rw [unpacked, decode]
  by_cases nan : infinityCode < code v
  · simp [nan, UnpackedFloat.isNaN]
  · rw [if_neg nan]
    split
    · simp [nan, UnpackedFloat.isNaN]
    · split <;> simp [nan, UnpackedFloat.isNaN]

theorem isFinite_iff (v : Float) : v.isFinite = true ↔ code v < infinityCode := by
  have unpacked : v.isFinite = (decode (signOf (isNegative v)) (code v)).isFinite := by
    rw [← unpack_toModel]
    rfl
  rw [unpacked, decode]
  by_cases nan : infinityCode < code v
  · rw [if_pos nan]
    simp [UnpackedFloat.isFinite]
    omega
  · rw [if_neg nan]
    split
    · simp [UnpackedFloat.isFinite]
      omega
    · split <;> simp [UnpackedFloat.isFinite] <;> omega

/-! ## Order -/

theorem compare_natCast (n k : Nat) : compare (n : Int) (k : Int) = compare n k := by
  rcases Nat.lt_trichotomy n k with h | rfl | h
  · rw [Nat.compare_eq_lt.2 h, Int.compare_eq_lt.2 (by omega)]
  · rw [Nat.compare_eq_eq.2 rfl, Int.compare_eq_eq.2 rfl]
  · rw [Nat.compare_eq_gt.2 h, Int.compare_eq_gt.2 (by omega)]

theorem compare_neg_natCast (n k : Nat) :
    compare (-(n : Int)) (-(k : Int)) = (compare n k).swap := by
  rcases Nat.lt_trichotomy n k with h | rfl | h
  · rw [Nat.compare_eq_lt.2 h, Int.compare_eq_gt.2 (by omega)]
    rfl
  · rw [Nat.compare_eq_eq.2 rfl, Int.compare_eq_eq.2 rfl]
    rfl
  · rw [Nat.compare_eq_gt.2 h, Int.compare_eq_lt.2 (by omega)]
    rfl

theorem doublings_le_doublings {n k : Nat} (h : n ≤ k) : doublings n ≤ doublings k :=
  Nat.sub_le_sub_right (Nat.div_le_div_right h) 1

theorem mantissa_lt_mantissa {n k : Nat} (h : n < k) (same : doublings n = doublings k) :
    mantissa n < mantissa k := by
  unfold mantissa
  rw [same]
  unfold doublings at *
  omega

/-- Floats of one sign are compared by exponent, then mantissa, which is the order of codes. -/
theorem compare_parts (n k : Nat) :
    (compare ((doublings n : Int) - 1074) ((doublings k : Int) - 1074)).then
      (compare (mantissa n) (mantissa k)) = compare n k := by
  rcases Nat.lt_trichotomy n k with h | rfl | h
  · rw [Nat.compare_eq_lt.2 h]
    have le := doublings_le_doublings (Nat.le_of_lt h)
    by_cases same : doublings n = doublings k
    · rw [Int.compare_eq_eq.2 (by omega), Nat.compare_eq_lt.2 (mantissa_lt_mantissa h same)]
      rfl
    · rw [Int.compare_eq_lt.2 (by omega)]
      rfl
  · rw [Int.compare_eq_eq.2 rfl, Nat.compare_eq_eq.2 rfl, Nat.compare_eq_eq.2 rfl]
    rfl
  · rw [Nat.compare_eq_gt.2 h]
    have le := doublings_le_doublings (Nat.le_of_lt h)
    by_cases same : doublings k = doublings n
    · rw [Int.compare_eq_eq.2 (by omega), Nat.compare_eq_gt.2 (mantissa_lt_mantissa h same)]
      rfl
    · rw [Int.compare_eq_gt.2 (by omega)]
      rfl

theorem mantissa_pos {n : Nat} (h : 0 < n) : 0 < mantissa n := by
  unfold mantissa doublings
  omega

theorem decode_infinity (s : Sign) : decode s infinityCode = .infinity s := by
  rw [decode, if_neg (Nat.lt_irrefl _), if_pos rfl]

theorem decode_zero (s : Sign) : decode s 0 = .zero s := rfl

theorem decode_finite {s : Sign} {n : Nat} (pos : 0 < n) (finite : n < infinityCode) :
    decode s n = .finite s (mantissa n) ((doublings n : Int) - 1074) (mantissa_pos pos) := by
  rw [decode, if_neg (Nat.lt_asymm finite), if_neg (Nat.ne_of_lt finite),
    dif_neg (Nat.ne_of_gt pos)]

theorem decode_undefined {s : Sign} {n : Nat} (h : infinityCode < n) :
    decode s n = .notANumber := by
  rw [decode, if_pos h]

theorem infinityCode_pos : 0 < infinityCode := by decide

theorem some_lt_eq_compare {i j : Int} (h : i < j) : some Ordering.lt = some (compare i j) := by
  rw [Int.compare_eq_lt.2 h]

theorem some_gt_eq_compare {i j : Int} (h : j < i) : some Ordering.gt = some (compare i j) := by
  rw [Int.compare_eq_gt.2 h]

/-- What is finite is zero or has a positive mantissa. -/
theorem decode_cases (s : Sign) {n : Nat} (hn : n < infinityCode) :
    decode s n = .zero s ∨ ∃ m e h, decode s n = .finite s m e h := by
  rcases Nat.eq_zero_or_pos n with rfl | pos
  · exact .inl rfl
  · exact .inr ⟨_, _, _, decode_finite pos hn⟩

theorem compare_infinity_decode (s t : Sign) {k : Nat} (hk : k < infinityCode) :
    (decode s infinityCode).compare (decode t k) =
      some (compare (s.apply infinityCode) (t.apply k)) := by
  rw [decode_infinity]
  cases s with
  | negative =>
    refine Eq.trans ?_ (some_lt_eq_compare (by cases t <;> simp only [Sign.apply] <;> omega))
    rcases decode_cases t hk with e | ⟨m, x, h, e⟩ <;> rw [e] <;> rfl
  | positive =>
    refine Eq.trans ?_ (some_gt_eq_compare (by cases t <;> simp only [Sign.apply] <;> omega))
    rcases decode_cases t hk with e | ⟨m, x, h, e⟩ <;> rw [e] <;> rfl

theorem compare_decode_infinity (s t : Sign) {n : Nat} (hn : n < infinityCode) :
    (decode s n).compare (decode t infinityCode) =
      some (compare (s.apply n) (t.apply infinityCode)) := by
  rw [decode_infinity]
  cases t with
  | negative =>
    refine Eq.trans ?_ (some_gt_eq_compare (by cases s <;> simp only [Sign.apply] <;> omega))
    rcases decode_cases s hn with e | ⟨m, x, h, e⟩ <;> rw [e] <;> rfl
  | positive =>
    refine Eq.trans ?_ (some_lt_eq_compare (by cases s <;> simp only [Sign.apply] <;> omega))
    rcases decode_cases s hn with e | ⟨m, x, h, e⟩ <;> rw [e] <;> rfl

theorem compare_infinity_infinity (s t : Sign) :
    (decode s infinityCode).compare (decode t infinityCode) =
      some (compare (s.apply infinityCode) (t.apply infinityCode)) := by
  have pos := infinityCode_pos
  rw [decode_infinity, decode_infinity]
  cases s <;> cases t
  · rw [Int.compare_eq_eq.2 rfl]
    rfl
  · exact some_lt_eq_compare (by simp only [Sign.apply]; omega)
  · exact some_gt_eq_compare (by simp only [Sign.apply]; omega)
  · rw [Int.compare_eq_eq.2 rfl]
    rfl

/-- Floats other than zero: first the sign decides, then the exponent, then the mantissa. -/
theorem compare_decode_pos (s t : Sign) {n k : Nat} (n0 : 0 < n) (hn : n < infinityCode)
    (k0 : 0 < k) (hk : k < infinityCode) :
    (decode s n).compare (decode t k) = some (compare (s.apply n) (t.apply k)) := by
  rw [decode_finite n0 hn, decode_finite k0 hk]
  cases s <;> cases t
  · show some ((compare _ _).then (compare _ _)).swap = _
    rw [compare_parts]
    exact congrArg some (compare_neg_natCast n k).symm
  · exact some_lt_eq_compare (by simp only [Sign.apply]; omega)
  · exact some_gt_eq_compare (by simp only [Sign.apply]; omega)
  · show some ((compare _ _).then (compare _ _)) = _
    rw [compare_parts]
    exact congrArg some (compare_natCast n k).symm

theorem compare_decode_finite (s t : Sign) {n k : Nat} (hn : n < infinityCode)
    (hk : k < infinityCode) :
    (decode s n).compare (decode t k) = some (compare (s.apply n) (t.apply k)) := by
  rcases Nat.eq_zero_or_pos n with rfl | n0
  · rcases Nat.eq_zero_or_pos k with rfl | k0
    · rw [decode_zero, decode_zero]
      cases s <;> cases t <;> rfl
    · rw [decode_zero, decode_finite k0 hk]
      cases t with
      | negative => exact some_gt_eq_compare (by cases s <;> simp only [Sign.apply] <;> omega)
      | positive => exact some_lt_eq_compare (by cases s <;> simp only [Sign.apply] <;> omega)
  · rcases Nat.eq_zero_or_pos k with rfl | k0
    · rw [decode_zero, decode_finite n0 hn]
      cases s with
      | negative => exact some_lt_eq_compare (by cases t <;> simp only [Sign.apply] <;> omega)
      | positive => exact some_gt_eq_compare (by cases t <;> simp only [Sign.apply] <;> omega)
    · exact compare_decode_pos s t n0 hn k0 hk

/-- **Comparing floats is comparing places.** -/
theorem compare_decode {s t : Sign} {n k : Nat} (hn : n ≤ infinityCode) (hk : k ≤ infinityCode) :
    (decode s n).compare (decode t k) = some (compare (s.apply n) (t.apply k)) := by
  rcases Nat.lt_or_eq_of_le hn with hn | rfl
  · rcases Nat.lt_or_eq_of_le hk with hk | rfl
    · exact compare_decode_finite s t hn hk
    · exact compare_decode_infinity s t hn
  · rcases Nat.lt_or_eq_of_le hk with hk | rfl
    · exact compare_infinity_decode s t hk
    · exact compare_infinity_infinity s t

theorem place_eq (v : Float) : place v = (signOf (isNegative v)).apply (code v) := by
  unfold place
  cases isNegative v <;> rfl

theorem natAbs_place (v : Float) : (place v).natAbs = code v := by
  unfold place
  split
  · exact Int.natAbs_neg _
  · rfl

theorem compare_eq (v w : Float) :
    v.toModel.unpack.compare w.toModel.unpack =
      if code v ≤ infinityCode ∧ code w ≤ infinityCode then some (compare (place v) (place w))
      else none := by
  rw [unpack_toModel, unpack_toModel, place_eq, place_eq]
  split
  · rename_i h
    exact compare_decode h.1 h.2
  · rename_i h
    by_cases hv : code v ≤ infinityCode
    · rw [decode_undefined (n := code w) (by omega)]
      cases decode (signOf (isNegative v)) (code v) <;> rfl
    · rw [decode_undefined (by omega)]
      rfl

theorem le_iff (v w : Float) :
    v ≤ w ↔ code v ≤ infinityCode ∧ code w ≤ infinityCode ∧ place v ≤ place w := by
  have unfolded : v ≤ w ↔ (v.toModel.unpack.compare w.toModel.unpack).any (·.isLE) = true := by
    show Float.le v w = true ↔ _
    unfold Float.le
    rw [decide_eq_true_iff]
    rfl
  rw [unfolded, compare_eq]
  split
  · rename_i h
    rw [Option.any_some, Int.isLE_compare]
    exact ⟨fun le => ⟨h.1, h.2, le⟩, fun le => le.2.2⟩
  · rename_i h
    exact ⟨fun none => (by cases none), fun le => absurd ⟨le.1, le.2.1⟩ h⟩

theorem lt_iff (v w : Float) :
    v < w ↔ code v ≤ infinityCode ∧ code w ≤ infinityCode ∧ place v < place w := by
  have unfolded : v < w ↔ v.toModel.unpack.compare w.toModel.unpack = some .lt := by
    show Float.lt v w = true ↔ _
    unfold Float.lt
    rw [decide_eq_true_iff]
    exact beq_iff_eq
  rw [unfolded, compare_eq]
  split
  · rename_i h
    rw [Option.some_inj, Int.compare_eq_lt]
    exact ⟨fun lt => ⟨h.1, h.2, lt⟩, fun lt => lt.2.2⟩
  · rename_i h
    exact ⟨fun none => (by cases none), fun lt => absurd ⟨lt.1, lt.2.1⟩ h⟩

theorem beq_iff (v w : Float) :
    (v == w) = true ↔ code v ≤ infinityCode ∧ code w ≤ infinityCode ∧ place v = place w := by
  have unfolded : (v == w) = true ↔ v.toModel.unpack.compare w.toModel.unpack = some .eq := by
    show (v.toModel.unpack.compare w.toModel.unpack == some .eq) = true ↔ _
    exact beq_iff_eq
  rw [unfolded, compare_eq]
  split
  · rename_i h
    rw [Option.some_inj, Int.compare_eq_eq]
    exact ⟨fun eq => ⟨h.1, h.2, eq⟩, fun eq => eq.2.2⟩
  · rename_i h
    exact ⟨fun none => (by cases none), fun eq => absurd ⟨eq.1, eq.2.1⟩ h⟩

/-- The order that sorts floats refines the order of places. -/
theorem orderKey_eq (v : Float) :
    orderKey v = if isNegative v then place v - 1 else place v := by
  have bits := toBits_eq v
  have small := code_lt v
  unfold orderKey signBit place
  cases sign : isNegative v <;> rw [sign] at bits <;> simp at bits ⊢ <;> omega

end CurvePuzzle.Binary64
