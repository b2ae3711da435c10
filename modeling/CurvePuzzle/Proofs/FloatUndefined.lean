import CurvePuzzle.Proofs.FloatZeros

/-!
# Undefined floats

A result that is no number has no value to speak of, so all undefined floats count as the same, as
the two zeros do. With this, subtraction is the addition of the negative, and zero and one are
neutral, for every float.

* `SameNumber`: two floats are the same, or both zeros, or both undefined.
* `SameNumber.add`, `SameNumber.sub`: sums and differences do not tell such floats apart.
* `sub_eq_add`, `sameNumber_zero_add`, `sameNumber_one_mul`, `sameNumber_neg_one_mul`.
-/

set_option autoImplicit false

namespace CurvePuzzle.Binary64

open Float.Model

/-! ## What is undefined stays undefined -/

theorem unpack_of_isNaN {v : Float} (h : v.isNaN = true) : v.toModel.unpack = .notANumber := by
  rw [unpack_toModel, decode_undefined ((isNaN_iff v).1 h)]

theorem isNaN_pack : (Float.ofModel (Float.Model.pack .notANumber)).isNaN = true := by decide

theorem not_isFinite_of_isNaN {v : Float} (h : v.isNaN = true) : v.isFinite = false := by
  have undefined := (isNaN_iff v).1 h
  rw [← Bool.not_eq_true, isFinite_iff]
  omega

/-- An operation that passes on a second operand that is no number. -/
theorem isNaN_of_passes (op : UnpackedFloat → UnpackedFloat → UnpackedFloat)
    (passes : ∀ u, op u .notANumber = .notANumber) {v w : Float} (h : w.isNaN = true) :
    (Float.ofModel (Float.Model.pack (op v.toModel.unpack w.toModel.unpack))).isNaN = true := by
  rw [unpack_of_isNaN h, passes]
  exact isNaN_pack

theorem isNaN_add {v w : Float} (h : w.isNaN = true) : (v + w).isNaN = true :=
  isNaN_of_passes (UnpackedFloat.add _) (fun u => by cases u <;> rfl) h

theorem isNaN_add_left {v w : Float} (h : v.isNaN = true) : (v + w).isNaN = true := by
  show (Float.ofModel (Float.Model.pack
    (UnpackedFloat.add _ v.toModel.unpack w.toModel.unpack))).isNaN = true
  rw [unpack_of_isNaN h]
  exact isNaN_pack

theorem isNaN_mul {v w : Float} (h : w.isNaN = true) : (v * w).isNaN = true :=
  isNaN_of_passes (UnpackedFloat.mul _) (fun u => by cases u <;> rfl) h

theorem isNaN_div {v w : Float} (h : w.isNaN = true) : (v / w).isNaN = true :=
  isNaN_of_passes (UnpackedFloat.div _) (fun u => by cases u <;> rfl) h

theorem isNaN_neg {v : Float} (h : v.isNaN = true) : (-v).isNaN = true := by
  show (Float.ofModel (Float.Model.pack v.toModel.unpack.neg)).isNaN = true
  rw [unpack_of_isNaN h]
  exact isNaN_pack

/-! ## Negatives -/

theorem unpack_neg (v : Float) : (-v).toModel.unpack = v.toModel.unpack.neg := by
  by_cases undefined : v.isNaN = true
  · rw [unpack_of_isNaN undefined, unpack_of_isNaN (isNaN_neg undefined)]
    rfl
  · have defined : code v ≤ infinityCode := by
      rw [isNaN_iff] at undefined
      omega
    have negative := stands_neg defined
    rw [unpack_toModel, unpack_toModel, negative.sign, negative.code, neg_decode]

/-- **Subtraction** adds the negative, bit by bit. -/
theorem sub_eq_add (v w : Float) : v - w = v + -w := by
  have difference : v - w = .ofModel (Float.Model.pack
      (UnpackedFloat.sub Format.binary64 v.toModel.unpack w.toModel.unpack)) := rfl
  have sum : v + -w = .ofModel (Float.Model.pack
      (UnpackedFloat.add Format.binary64 v.toModel.unpack (-w).toModel.unpack)) := rfl
  rw [difference, sum, unpack_neg, unpacked_sub]

/-! ## The same number -/

/-- Two floats are the same, or both zeros, or both undefined. -/
def SameNumber (v w : Float) : Prop := SameValue v w ∨ v.isNaN = true ∧ w.isNaN = true

namespace SameNumber

variable {u v v' w w' : Float}

theorem refl (v : Float) : SameNumber v v := .inl (.refl v)

theorem symm (h : SameNumber v w) : SameNumber w v := by
  rcases h with same | ⟨hv, hw⟩
  · exact .inl same.symm
  · exact .inr ⟨hw, hv⟩

theorem isNaN_eq (h : SameNumber v w) : v.isNaN = w.isNaN := by
  rcases h with same | ⟨hv, hw⟩
  · rw [Bool.eq_iff_iff, isNaN_iff, isNaN_iff, same.code_eq]
  · rw [hv, hw]

theorem trans (h : SameNumber u v) (h' : SameNumber v w) : SameNumber u w := by
  rcases h with same | ⟨hu, hv⟩
  · rcases h' with same' | ⟨hv, hw⟩
    · exact .inl (same.trans same')
    · exact .inr ⟨by rw [isNaN_eq (.inl same), hv], hw⟩
  · exact .inr ⟨hu, by rw [← h'.isNaN_eq, hv]⟩

theorem isFinite_eq (h : SameNumber v w) : v.isFinite = w.isFinite := by
  rcases h with same | ⟨hv, hw⟩
  · exact same.isFinite_eq
  · rw [not_isFinite_of_isNaN hv, not_isFinite_of_isNaN hw]

theorem alike (h : SameNumber v w) : Alike v.toModel.unpack w.toModel.unpack := by
  rcases h with same | ⟨hv, hw⟩
  · exact same.alike
  · exact .inl ((unpack_of_isNaN hv).trans (unpack_of_isNaN hw).symm)

theorem add (h : SameNumber v v') (h' : SameNumber w w') : SameNumber (v + w) (v' + w') :=
  .inl (h.alike.add h'.alike).sameValue

theorem neg (h : SameNumber v w) : SameNumber (-v) (-w) := by
  rcases h with (rfl | ⟨hv, hw⟩) | ⟨hv, hw⟩
  · exact .refl _
  · have zero {z : Float} (hz : code z = 0) : code (-z) = 0 := by
      rw [(stands_neg (by omega)).code, hz]
    exact .inl (.inr ⟨zero hv, zero hw⟩)
  · exact .inr ⟨isNaN_neg hv, isNaN_neg hw⟩

theorem sub (h : SameNumber v v') (h' : SameNumber w w') : SameNumber (v - w) (v' - w') := by
  rw [sub_eq_add, sub_eq_add]
  exact h.add h'.neg

end SameNumber

/-! ## Neutral numbers -/

/-- A sum that starts from zero, also with an infinite or undefined number. -/
theorem sameNumber_zero_add (v : Float) : SameNumber (0.0 + v) v := by
  by_cases undefined : v.isNaN = true
  · exact .inr ⟨isNaN_add undefined, undefined⟩
  by_cases finite : v.isFinite = true
  · exact .inl (sameValue_zero_add finite)
  · have infinite : code v = infinityCode := by
      rw [isNaN_iff] at undefined
      rw [isFinite_iff] at finite
      omega
    have sum := stands_add_infinity (by decide : (0.0 : Float).isFinite = true) infinite
    exact .inl (.inl (eq_of_code_eq (signOf_inj sum.sign) (sum.code.trans infinite.symm)))

theorem sameNumber_one_mul (v : Float) : SameNumber (1.0 * v) v := by
  by_cases undefined : v.isNaN = true
  · exact .inr ⟨isNaN_mul undefined, undefined⟩
  · rw [isNaN_iff, Nat.not_lt] at undefined
    rw [one_mul_eq undefined]
    exact .refl v

theorem sameNumber_neg_one_mul (v : Float) : SameNumber (-1.0 * v) (-v) := by
  by_cases undefined : v.isNaN = true
  · exact .inr ⟨isNaN_mul undefined, isNaN_neg undefined⟩
  · rw [isNaN_iff, Nat.not_lt] at undefined
    rw [neg_one_mul_eq undefined]
    exact .refl (-v)

end CurvePuzzle.Binary64
