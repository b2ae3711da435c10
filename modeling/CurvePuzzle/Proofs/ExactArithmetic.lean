import Mathlib.Algebra.Order.Field.Basic
import Mathlib.Algebra.Order.Ring.Abs
import Mathlib.Data.Rat.Cast.OfScientific
import Mathlib.Tactic.Linarith
import Mathlib.Tactic.NormNum.OfScientific
import Mathlib.Tactic.Ring
import CurvePuzzle.Curve.Tracer

/-!
# Exact arithmetic

Curves can be traced over any ordered field instead of floats. Nothing is rounded there, every
number is finite, and points are sorted by the order of the field.

* The instance of `Scalar`, in the scope `CurvePuzzle.Exact`.
* `Exact.distanceSquared_eq`: the squared distance of two points.
* `Exact.pairwise_ofList`: a run is sorted.
* `Exact.target_backward`, `Exact.target_forward`: where a walk looks.
* `Exact.step_shorten`: half the way there.
-/

set_option autoImplicit false

namespace CurvePuzzle.Exact

variable {K : Type} [Field K] [LinearOrder K]

/-- An ordered field as the arithmetic of curves. -/
scoped instance : Scalar K where
  abs x := |x|
  isFinite _ := true
  precedes x y := decide (x ≤ y)

theorem distanceSquared_eq (p q : Point K) :
    p.distanceSquared q = (p.x - q.x) ^ 2 + (p.y - q.y) ^ 2 := by
  show (p.x - q.x) * (p.x - q.x) + (p.y - q.y) * (p.y - q.y) = _
  ring

/-- The points of a run are in order. -/
theorem pairwise_ofList (ps : List (Point K)) :
    (Run.ofList ps).points.toList.Pairwise fun p q => p.x ≤ q.x := by
  have transitive (p q m : Point K) (first : decide (p.x ≤ q.x) = true)
      (second : decide (q.x ≤ m.x) = true) : decide (p.x ≤ m.x) = true :=
    decide_eq_true (le_trans (of_decide_eq_true first) (of_decide_eq_true second))
  have total (p q : Point K) : (decide (p.x ≤ q.x) || decide (q.x ≤ p.x)) = true := by
    simpa using le_total p.x q.x
  exact (List.pairwise_mergeSort transitive total ps).imp of_decide_eq_true

/-! ## Where a walk looks -/

variable [IsStrictOrderedRing K]

theorem unit_backward : (Direction.backward.unit : K) = -1 := by
  show (-1.0 : K) = -1
  norm_num

theorem unit_forward : (Direction.forward.unit : K) = 1 := by
  show (1.0 : K) = 1
  norm_num

theorem target_backward (t : Tracer K) (w : Walk K) :
    t.target .backward w = max (w.previous.x - w.step) t.window.xStart := by
  show (if _ then _ else _) = _
  rw [unit_backward, neg_one_mul, ← sub_eq_add_neg, max_def_lt]

theorem target_forward (t : Tracer K) (w : Walk K) :
    t.target .forward w = min (w.previous.x + w.step) t.window.xEnd := by
  show (if _ then _ else _) = _
  rw [unit_forward, one_mul, min_comm, min_def_lt]

theorem step_shorten (w : Walk K) (x : K) : (w.shorten x).step = |x - w.previous.x| / 2 := by
  show |x - w.previous.x| / (2.0 : K) = _
  norm_num

theorem step_move (t : Tracer K) (w : Walk K) (p : Point K) (distance : K) :
    (w.move t p distance).step =
      if distance < t.sampling.minDistanceSquared then w.step * 2 else w.step := by
  show (if _ then w.step * (2.0 : K) else _) = _
  norm_num

end CurvePuzzle.Exact
