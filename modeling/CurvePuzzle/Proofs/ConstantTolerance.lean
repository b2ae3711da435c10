import CurvePuzzle.Formula.Equality
import CurvePuzzle.Proofs.FloatArithmetic

/-!
# The tolerance of constants

Two constants are close when they differ by less than `1e-10`.

* `closeTo_iff`: closeness in terms of codes; close constants are finite.
* `closeTo_comm`, `closeTo_self`: closeness is symmetric, and a finite constant is close to itself.
-/

set_option autoImplicit false

namespace CurvePuzzle

open Float.Model Binary64

namespace Binary64

/-- What is infinite or undefined stays so when it is packed. -/
theorem isFinite_pack {u : UnpackedFloat} (h : u.isFinite = false) :
    (Float.ofModel (Float.Model.pack u)).isFinite = false := by
  cases u with
  | notANumber => decide
  | infinity s => cases s <;> decide
  | zero s => cases h
  | finite s m e pos => cases h

theorem isFinite_of_unpacked_sub {a b : UnpackedFloat}
    (h : (UnpackedFloat.sub Format.binary64 a b).isFinite = true) :
    a.isFinite = true ∧ b.isFinite = true := by
  cases a with
  | notANumber => cases h
  | infinity s =>
    cases b with
    | infinity t => cases s <;> cases t <;> cases h
    | _ => cases h
  | zero s =>
    cases b with
    | notANumber => cases h
    | infinity t => cases h
    | _ => exact ⟨rfl, rfl⟩
  | finite s m e pos =>
    cases b with
    | notANumber => cases h
    | infinity t => cases h
    | _ => exact ⟨rfl, rfl⟩

/-- A difference is finite only if both numbers are. -/
theorem isFinite_of_sub {v w : Float} (h : (v - w).isFinite = true) :
    v.isFinite = true ∧ w.isFinite = true := by
  have packed : v - w = .ofModel (Float.Model.pack
      (UnpackedFloat.sub Format.binary64 v.toModel.unpack w.toModel.unpack)) := rfl
  refine isFinite_of_unpacked_sub ?_
  by_contra infinite
  rw [packed, isFinite_pack (Bool.eq_false_iff.2 infinite)] at h
  cases h

/-- A number whose magnitude is below a finite one is finite. -/
theorem abs_lt_iff {v w : Float} (hw : w.isFinite = true) (plus : isNegative w = false) :
    v.abs < w ↔ code v < code w := by
  have finite := (isFinite_iff w).1 hw
  have bound : place w = code w := by rw [place, plus, if_neg Bool.false_ne_true]
  by_cases defined : code v ≤ infinityCode
  · have abs := stands_abs defined
    rw [lt_iff, abs.code, abs.place, bound]
    constructor
    · exact fun h => Int.ofNat_lt.1 h.2.2
    · exact fun h => ⟨defined, Nat.le_of_lt finite, Int.ofNat_lt.2 h⟩
  · have nan : v.abs = .ofModel (Float.Model.pack .notANumber) := by
      show Float.ofModel (Float.Model.pack v.toModel.unpack.abs) = _
      rw [unpack_toModel, decode_undefined (by omega)]
      rfl
    have undefined : infinityCode < code v.abs := by
      rw [nan]
      decide
    rw [lt_iff]
    constructor <;> intro h <;> omega

end Binary64

namespace Formula

theorem abs_lt_tolerance_iff {v : Float} : v.abs < 1e-10 ↔ code v < code 1e-10 :=
  abs_lt_iff (by decide) (by decide)

/-- **Close constants** are finite, and differ by little. -/
theorem closeTo_iff {u v : Float} :
    closeTo u v = true ↔
      u.isFinite = true ∧ v.isFinite = true ∧ code (u - v) < code 1e-10 := by
  have bound : code (1e-10 : Float) < infinityCode := by decide
  rw [closeTo, decide_eq_true_iff]
  refine abs_lt_tolerance_iff.trans ?_
  constructor
  · intro h
    have both := isFinite_of_sub ((isFinite_iff (u - v)).2 (Nat.lt_trans h bound))
    exact ⟨both.1, both.2, h⟩
  · exact fun h => h.2.2

theorem closeTo_comm (u v : Float) : closeTo u v = closeTo v u := by
  rw [Bool.eq_iff_iff, closeTo_iff, closeTo_iff]
  constructor
  · rintro ⟨hu, hv, close⟩
    exact ⟨hv, hu, code_sub_comm hv hu ▸ close⟩
  · rintro ⟨hv, hu, close⟩
    exact ⟨hu, hv, code_sub_comm hu hv ▸ close⟩

/-- A constant is close to itself if it is finite. -/
theorem closeTo_self {u : Float} : closeTo u u = true ↔ u.isFinite = true := by
  rw [closeTo_iff]
  refine ⟨fun h => h.1, fun finite => ⟨finite, finite, ?_⟩⟩
  rw [(sum_sub finite finite).code, Int.sub_self, Int.natAbs_zero, nearestCode_zero Nat.one_pos]
  decide

end Formula

end CurvePuzzle
