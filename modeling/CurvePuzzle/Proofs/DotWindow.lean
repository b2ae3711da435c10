import CurvePuzzle.Proofs.ConstantTolerance
import CurvePuzzle.Proofs.FloatUndefined
import CurvePuzzle.Proofs.Hits
import CurvePuzzle.Proofs.RunWindow
import CurvePuzzle.Proofs.TracedRuns

/-!
# The window around a dot

Before distances are measured, a run is cut to the points that lie within a radius of the centre
in `x`. That is meant to lose no point of the circle. But the ends of the window are rounded, and
so are the distances, and the two need not agree on a point that touches the circle from outside.

* `Dot.code_sub_le_of_contains`: a point in the circle is a radius away in `x` at most, after
  rounding.
* `Dot.RoundsInto`: the exact difference in `x` is longer than the radius, and is rounded to it.
* `Dot.hit_iff_in_window`: the runs hit the dot by a point of the circle that is in the window, and
  points of the circle that it cuts off are rounded into the circle.
  `Dot.window_cuts_off_touching`: such a point.
-/

set_option autoImplicit false

namespace CurvePuzzle

open Binary64

/-! ## Squares below a square -/

namespace Binary64

/-- A sum of squares that a comparison accepts is a sum of defined numbers. -/
theorem defined_of_sum_squares {v w : Float} (h : code (v * v + w * w) ≤ infinityCode) :
    code v ≤ infinityCode ∧ code w ≤ infinityCode := by
  constructor
  · by_contra undefined
    have nan := isNaN_add_left (w := w * w) (isNaN_mul (v := v) ((isNaN_iff v).2 (by omega)))
    rw [isNaN_iff] at nan
    omega
  · by_contra undefined
    have nan := isNaN_add (v := v * v) (isNaN_mul (v := w) ((isNaN_iff w).2 (by omega)))
    rw [isNaN_iff] at nan
    omega

/-- A square is below a number that its sum with another square is below. -/
theorem place_square_le {v w m : Float} (h : v * v + w * w ≤ m) : place (v * v) ≤ place m := by
  obtain ⟨defined, -, below⟩ := (le_iff _ _).1 h
  obtain ⟨definedV, definedW⟩ := defined_of_sum_squares defined
  exact Int.le_trans ((isLength_square definedV).place_le_add (isLength_square definedW)) below

end Binary64

namespace Dot

variable {d : Dot} {x y : Float}

theorem radius_spec : code radius < infinityCode ∧ isNegative radius = false := by decide

theorem isFinite_radius : radius.isFinite = true := (isFinite_iff _).2 radius_spec.1

/-- The square of the next longer float is longer than the square of the radius. -/
theorem square_radius_lt :
    productCode (code radius) (code radius) < productCode (code radius + 1) (code radius + 1) := by
  decide +kernel

/-- **A point in the circle** is a radius away from the centre in `x` at most, after rounding. -/
theorem code_sub_le_of_contains (h : d.contains x y = true) :
    x.isFinite = true ∧ d.x.isFinite = true ∧ code (x - d.x) ≤ code radius := by
  have sum : (x - d.x) * (x - d.x) + (y - d.y) * (y - d.y) ≤ radius * radius := of_decide_eq_true h
  have defined := (defined_of_sum_squares ((le_iff _ _).1 sum).1).1
  have below := place_square_le sum
  have near : code (x - d.x) ≤ code radius := by
    by_contra far
    have longer := productCode_le_productCode (n := code radius + 1) (k := code radius + 1)
      (m := code (x - d.x)) (l := code (x - d.x)) (by omega) (by omega) defined defined
    have shorter := square_radius_lt
    rw [(stands_square defined).place, (stands_square (Nat.le_of_lt radius_spec.1)).place] at below
    have below := Int.ofNat_le.1 below
    omega
  have finite : (x - d.x).isFinite = true :=
    (isFinite_iff _).2 (Nat.lt_of_le_of_lt near radius_spec.1)
  obtain ⟨finiteX, finiteC⟩ := isFinite_of_sub finite
  exact ⟨finiteX, finiteC, near⟩

/-! ## The ends of the window -/

/-- The place is farther from the centre in `x` than the radius, and the difference is rounded to the
radius. -/
structure RoundsInto (d : Dot) (x : Float) : Prop where
  rounded : (x - d.x).abs = radius
  farther : amount radius < (amount x - amount d.x).natAbs

/-- Rounding keeps the order, so the window holds all that is exactly within the radius. -/
theorem in_window_of_amount (hx : x.isFinite = true) (hd : d.x.isFinite = true)
    (near : (amount x - amount d.x).natAbs ≤ amount radius) :
    d.x - radius ≤ x ∧ x ≤ d.x + radius := by
  have defined := Nat.le_of_lt ((isFinite_iff x).1 hx)
  have low := sum_sub hd isFinite_radius
  have high := sum_add hd isFinite_radius
  have riseLow := nearestPlace_mono (i := amount d.x - amount radius) (j := amount x) (by omega)
  have riseHigh := nearestPlace_mono (i := amount x) (j := amount d.x + amount radius) (by omega)
  rw [nearestPlace_amount defined, ← low.place] at riseLow
  rw [nearestPlace_amount defined, ← high.place] at riseHigh
  exact ⟨(le_iff _ _).2 ⟨low.defined, defined, riseLow⟩,
    (le_iff _ _).2 ⟨defined, high.defined, riseHigh⟩⟩

/-- A longer difference that is rounded to the radius at most is rounded to the radius. -/
theorem roundsInto_of_amount (hx : x.isFinite = true) (hd : d.x.isFinite = true)
    (near : code (x - d.x) ≤ code radius)
    (far : amount radius < (amount x - amount d.x).natAbs) : d.RoundsInto x := by
  have difference := sum_sub hx hd
  have exactRadius : amount radius = units (code radius) := by
    rw [amount_eq, radius_spec.2, if_neg Bool.false_ne_true]
  have rise := nearestCode_mono (a := units (code radius)) (c := (amount x - amount d.x).natAbs)
    Nat.one_pos Nat.one_pos (by omega)
  rw [nearestCode_units] at rise
  have reached : code (x - d.x) = code radius := by
    have bound := radius_spec.1
    have rounded := difference.code
    omega
  have magnitude := stands_abs difference.defined
  refine ⟨eq_of_code_eq ?_ (magnitude.code.trans reached), far⟩
  rw [radius_spec.2]
  exact signOf_inj magnitude.sign

/-- A point in the circle is in the window, or is rounded into the circle. -/
theorem in_window_or_roundsInto (h : d.contains x y = true) :
    (d.x - radius ≤ x ∧ x ≤ d.x + radius) ∨ d.RoundsInto x := by
  obtain ⟨finiteX, finiteC, near⟩ := code_sub_le_of_contains h
  by_cases far : amount radius < (amount x - amount d.x).natAbs
  · exact .inr (roundsInto_of_amount finiteX finiteC near far)
  · exact .inl (in_window_of_amount finiteX finiteC (Int.not_lt.1 far))

/-! ## Hits by the runs -/

theorem mem_inWindow_iff {r : Run Float} (sorted : r.IsSorted) (hd : d.x.isFinite = true)
    {p : Point Float} :
    p ∈ r.inWindow (d.x - radius) (d.x + radius) ↔
      p ∈ r.points ∧ d.x - radius ≤ p.x ∧ p.x ≤ d.x + radius := by
  have entry : (d.x - radius).isNaN = false := by
    rw [← Bool.not_eq_true, isNaN_iff, Nat.not_lt]
    exact (sum_sub hd isFinite_radius).defined
  rw [← Array.mem_toList_iff, Run.inWindow_eq_filter sorted entry, List.mem_filter,
    Array.mem_toList_iff, Bool.and_eq_true, decide_eq_true_iff, decide_eq_true_iff]

theorem isHitByRuns_iff {runs : List (Run Float)} :
    d.isHitByRuns runs = true ↔
      ∃ r ∈ runs, ∃ p ∈ r.inWindow (d.x - radius) (d.x + radius), d.contains p.x p.y = true := by
  unfold isHitByRuns
  rw [List.any_eq_true]
  refine exists_congr fun r => and_congr_right fun _ => ?_
  exact Array.any_eq_true'

/-- **The window loses rounded points only.** Sorted runs hit a dot exactly by the points of the
circle in its window. Every other point of the circle is rounded into it. -/
theorem hit_iff_in_window {runs : List (Run Float)} (sorted : ∀ r ∈ runs, r.IsSorted) :
    (d.isHitByRuns runs = true ↔
      ∃ r ∈ runs, ∃ p ∈ r.points,
        d.contains p.x p.y = true ∧ d.x - radius ≤ p.x ∧ p.x ≤ d.x + radius) ∧
    ∀ r ∈ runs, ∀ p ∈ r.points, d.contains p.x p.y = true →
      d.isHitByRuns runs = true ∨ d.RoundsInto p.x := by
  have window : d.isHitByRuns runs = true ↔
      ∃ r ∈ runs, ∃ p ∈ r.points,
        d.contains p.x p.y = true ∧ d.x - radius ≤ p.x ∧ p.x ≤ d.x + radius := by
    rw [isHitByRuns_iff]
    constructor
    · rintro ⟨r, hr, p, hp, inside⟩
      obtain ⟨-, finite, -⟩ := code_sub_le_of_contains inside
      obtain ⟨member, ends⟩ := (mem_inWindow_iff (sorted r hr) finite).1 hp
      exact ⟨r, hr, p, member, inside, ends⟩
    · rintro ⟨r, hr, p, member, inside, ends⟩
      obtain ⟨-, finite, -⟩ := code_sub_le_of_contains inside
      exact ⟨r, hr, p, (mem_inWindow_iff (sorted r hr) finite).2 ⟨member, ends⟩, inside⟩
  refine ⟨window, ?_⟩
  intro r hr p hp inside
  rcases in_window_or_roundsInto inside with ends | rounded
  · exact .inl (window.2 ⟨r, hr, p, hp, inside, ends⟩)
  · exact .inr rounded

/-- A point that touches the circle from inside is a hit, the second of two at its place. -/
theorem touching_point_hits :
    let d : Dot := ⟨0.0, 0.0, .good⟩
    let r : Run Float := ⟨#[⟨-1.0, 0.0⟩, ⟨0.25, 3.0⟩, ⟨0.25, 0.0⟩]⟩
    r.IsSorted ∧ d.isHitByRuns [r] = true := by
  intro d r
  have sorted : r.IsSorted := ⟨by decide +kernel, by decide +kernel⟩
  have runs : ∀ r' ∈ [r], r'.IsSorted := by
    intro r' hr'
    rw [List.mem_singleton] at hr'
    rw [hr']
    exact sorted
  refine ⟨sorted, (hit_iff_in_window runs).1.2 ⟨r, List.mem_singleton.2 rfl, ⟨0.25, 0.0⟩, ?_⟩⟩
  decide +kernel

/-- The end of the window of a dot at `-0.2` is rounded to a float below `0.05`. A point there is in
the circle, at a rounded distance of one radius, and the runs do not hit the dot. -/
theorem window_cuts_off_touching :
    ∃ (d : Dot) (r : Run Float), r.IsSorted ∧ d.isHitByRuns [r] = false ∧
      ∃ p ∈ r.points, d.contains p.x p.y = true := by
  let d : Dot := ⟨-0.2, 0.0, .good⟩
  let r : Run Float := ⟨#[⟨0.05, 0.0⟩]⟩
  have sorted : r.IsSorted := ⟨by decide +kernel, by decide +kernel⟩
  refine ⟨d, r, sorted, ?_, ⟨0.05, 0.0⟩, by decide +kernel, by decide +kernel⟩
  rw [← Bool.not_eq_true, isHitByRuns_iff]
  rintro ⟨r', hr', p, hp, -⟩
  rw [List.mem_singleton.1 hr', mem_inWindow_iff sorted (by decide +kernel)] at hp
  obtain ⟨member, -, high⟩ := hp
  rw [List.mem_singleton.1 (Array.mem_toList_iff.2 member)] at high
  exact absurd high (by decide +kernel)

end Dot

end CurvePuzzle
