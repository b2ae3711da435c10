import CurvePuzzle.Proofs.ConstantTolerance

/-!
# The sign of a zero

There are two zeros, which arithmetic tells apart only by their signs.

* `SameValue`: two floats are the same, or both zeros.
* `SameValue.add`, `SameValue.mul`, `SameValue.div`: the results of the operations do not depend on
  the signs of zeros, but for a zero divisor.
* `sameValue_zero_add`: zero is neutral.
-/

set_option autoImplicit false

namespace CurvePuzzle.Binary64

open Float.Model

/-- Two floats are the same, or both are zeros, of whatever sign. -/
def SameValue (v w : Float) : Prop := v = w ∨ code v = 0 ∧ code w = 0

namespace SameValue

variable {u v w : Float}

theorem refl (v : Float) : SameValue v v := .inl rfl

theorem symm (h : SameValue v w) : SameValue w v := by
  rcases h with rfl | ⟨hv, hw⟩
  · exact .refl _
  · exact .inr ⟨hw, hv⟩

theorem trans (h : SameValue u v) (h' : SameValue v w) : SameValue u w := by
  rcases h with rfl | ⟨hu, hv⟩
  · exact h'
  · rcases h' with rfl | ⟨-, hw⟩
    · exact .inr ⟨hu, hv⟩
    · exact .inr ⟨hu, hw⟩

theorem code_eq (h : SameValue v w) : code v = code w := by
  rcases h with rfl | ⟨hv, hw⟩
  · rfl
  · rw [hv, hw]

theorem isFinite_eq (h : SameValue v w) : v.isFinite = w.isFinite := by
  rw [Bool.eq_iff_iff, isFinite_iff, isFinite_iff, h.code_eq]

/-- A float other than zero is the same as itself only. -/
theorem eq_of_code_ne (h : SameValue v w) (ne : code v ≠ 0) : v = w :=
  h.resolve_right fun zeros => ne zeros.1

/-- Floats at the same place are the same. -/
theorem of_place (h : place v = place w) : SameValue v w := by
  have codes : code v = code w := by rw [← natAbs_place, ← natAbs_place, h]
  by_cases zero : code v = 0
  · exact .inr ⟨zero, codes ▸ zero⟩
  · refine .inl (eq_of_code_eq ?_ codes)
    unfold place at h
    split at h <;> split at h
    · rename_i hv hw
      rw [hv, hw]
    · omega
    · omega
    · rename_i hv hw
      rw [Bool.eq_false_iff.2 hv, Bool.eq_false_iff.2 hw]

end SameValue

/-- A positive number is no zero. -/
theorem code_ne_zero_of_pos {v : Float} (pos : 0 < v) : code v ≠ 0 := by
  intro zero
  obtain ⟨-, -, above⟩ := (lt_iff 0 v).1 pos
  have none : place (0 : Float) = 0 := by decide
  have here : place v = 0 := by rw [← Int.natAbs_eq_zero, natAbs_place, zero]
  omega

/-! ## Floats taken apart -/

/-- Floats taken apart that are the same, or both zeros. -/
def Alike (a b : UnpackedFloat) : Prop := a = b ∨ ∃ s t, a = .zero s ∧ b = .zero t

theorem unpack_of_code_eq_zero {v : Float} (h : code v = 0) :
    v.toModel.unpack = .zero (signOf (isNegative v)) := by
  rw [unpack_toModel, h, decode_zero]

theorem SameValue.alike {v w : Float} (h : SameValue v w) :
    Alike v.toModel.unpack w.toModel.unpack := by
  rcases h with rfl | ⟨hv, hw⟩
  · exact .inl rfl
  · exact .inr ⟨_, _, unpack_of_code_eq_zero hv, unpack_of_code_eq_zero hw⟩

namespace Alike

variable {a a' b b' : UnpackedFloat}

theorem sameValue (h : Alike a b) :
    SameValue (.ofModel (Float.Model.pack a)) (.ofModel (Float.Model.pack b)) := by
  have zero (s : UnpackedFloat.Sign) : code (.ofModel (Float.Model.pack (.zero s))) = 0 := by
    rw [← decode_zero]
    exact (stands_decode s (Nat.zero_le _)).code
  rcases h with rfl | ⟨s, t, rfl, rfl⟩
  · exact .refl _
  · exact .inr ⟨zero s, zero t⟩

theorem of_zeros {s t : UnpackedFloat.Sign} (ha : a = .zero s) (hb : b = .zero t) : Alike a b :=
  .inr ⟨s, t, ha, hb⟩

theorem add_zeros (s t : UnpackedFloat.Sign) :
    ∃ r, UnpackedFloat.add Format.binary64 (.zero s) (.zero t) = .zero r := by
  cases s <;> cases t <;> exact ⟨_, rfl⟩

theorem add (h : Alike a a') (h' : Alike b b') :
    Alike (UnpackedFloat.add Format.binary64 a b) (UnpackedFloat.add Format.binary64 a' b') := by
  have zeros (s t s' t' : UnpackedFloat.Sign) :
      Alike (UnpackedFloat.add Format.binary64 (.zero s) (.zero t))
        (UnpackedFloat.add Format.binary64 (.zero s') (.zero t')) := by
    obtain ⟨r, sum⟩ := add_zeros s t
    obtain ⟨r', sum'⟩ := add_zeros s' t'
    exact of_zeros sum sum'
  rcases h with rfl | ⟨s, s', rfl, rfl⟩ <;> rcases h' with rfl | ⟨t, t', rfl, rfl⟩
  · exact .inl rfl
  · cases a with
    | zero s => exact zeros s t s t'
    | _ => exact .inl rfl
  · cases b with
    | zero t => exact zeros s t s' t
    | _ => exact .inl rfl
  · exact zeros s t s' t'

theorem mul (h : Alike a a') (h' : Alike b b') :
    Alike (UnpackedFloat.mul Format.binary64 a b) (UnpackedFloat.mul Format.binary64 a' b') := by
  rcases h with rfl | ⟨s, s', rfl, rfl⟩ <;> rcases h' with rfl | ⟨t, t', rfl, rfl⟩
  · exact .inl rfl
  · cases a with
    | zero s => exact of_zeros rfl rfl
    | finite s m e pos => exact of_zeros rfl rfl
    | _ => exact .inl rfl
  · cases b with
    | zero t => exact of_zeros rfl rfl
    | finite t m e pos => exact of_zeros rfl rfl
    | _ => exact .inl rfl
  · exact of_zeros rfl rfl

/-- The sign of a zero divisor would be the sign of an infinite quotient. -/
theorem div (h : Alike a a') (b : UnpackedFloat) :
    Alike (UnpackedFloat.div Format.binary64 a b) (UnpackedFloat.div Format.binary64 a' b) := by
  rcases h with rfl | ⟨s, s', rfl, rfl⟩
  · exact .inl rfl
  · cases b with
    | infinity t => exact of_zeros rfl rfl
    | finite t m e pos => exact of_zeros rfl rfl
    | _ => exact .inl rfl

end Alike

namespace SameValue

variable {v v' w w' : Float}

theorem add (h : SameValue v v') (h' : SameValue w w') : SameValue (v + w) (v' + w') :=
  (h.alike.add h'.alike).sameValue

theorem mul (h : SameValue v v') (h' : SameValue w w') : SameValue (v * w) (v' * w') :=
  (h.alike.mul h'.alike).sameValue

theorem div (h : SameValue v v') (w : Float) : SameValue (v / w) (v' / w) :=
  (h.alike.div w.toModel.unpack).sameValue

end SameValue

/-! ## Sums from zero -/

/-- A sum that starts from zero. -/
theorem sameValue_zero_add {v : Float} (h : v.isFinite = true) : SameValue (0.0 + v) v := by
  have zero : (0.0 : Float).isFinite = true := by decide
  have none : amount 0.0 = 0 := by decide
  refine .of_place ?_
  rw [(sum_add zero h).place, none, Int.zero_add,
    nearestPlace_amount (Nat.le_of_lt ((isFinite_iff v).1 h))]

end CurvePuzzle.Binary64
