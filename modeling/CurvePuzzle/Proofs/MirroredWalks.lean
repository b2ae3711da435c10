import Mathlib.Algebra.Order.Group.MinMax
import CurvePuzzle.Proofs.ExactArithmetic

/-!
# Mirrored walks

The two directions of a walk differ in the edge of the window that they approach, in the sign of
their step and in the comparison that keeps them in the window. Over exact arithmetic this is one
difference: each is the other seen in a mirror. Turn the curve and the window over at the `y` axis,
and every step of a walk becomes a step of a walk in the opposite direction, which makes the same
retries with the same lengths.

* `Point.mirror`, `Window.mirror`, `Tracer.mirror`, `Walk.mirror`: what the mirror shows.
* `Tracer.target_mirror`, `Tracer.sample?_mirror`: where a walk looks, and what it finds there.
* `Walk.advance?_mirror`: one step of a walk.
* `Tracer.walks_are_mirrored`: whole walks, of any function from any seed.
-/

set_option autoImplicit false

namespace CurvePuzzle

/-! ## What the mirror shows -/

section Mirror

variable {α : Type} [Scalar α]

/-- A point turned over at the `y` axis. -/
def Point.mirror (p : Point α) : Point α := ⟨-p.x, p.y⟩

/-- A window turned over: its edges change places. -/
def Window.mirror (w : Window α) : Window α := ⟨-w.xEnd, -w.xStart, w.yLimit⟩

/-- The tracer of the window turned over, with the same sampling. -/
def Tracer.mirror (t : Tracer α) : Tracer α := ⟨t.window.mirror, t.sampling⟩

/-- The other direction. -/
def Direction.opposite : Direction → Direction
  | backward => forward
  | forward => backward

/-- A walk turned over, with the same step and the same room. -/
def Walk.mirror (w : Walk α) : Walk α :=
  { w with previous := w.previous.mirror, points := w.points.map Point.mirror }

theorem Walk.mirror_start (t : Tracer α) (seed : Point α) :
    (Walk.start t seed).mirror = .start t.mirror seed.mirror := rfl

variable [DecidableLT α]

theorem Walk.mirror_move (t : Tracer α) (w : Walk α) (p : Point α) (distance : α) :
    (w.move t p distance).mirror = w.mirror.move t.mirror p.mirror distance := rfl

end Mirror

open scoped Exact

variable {K : Type} [Field K] [LinearOrder K]

theorem Point.distanceSquared_mirror (p q : Point K) :
    p.mirror.distanceSquared q.mirror = p.distanceSquared q := by
  simp only [Exact.distanceSquared_eq, mirror]
  ring

/-! ## One step -/

namespace Tracer

theorem boundary_mirror (t : Tracer K) (d : Direction) :
    t.mirror.boundary d.opposite = -t.boundary d := by
  cases d <;> rfl

/-- **A mirrored tracer finds the mirrored point** of the mirrored curve. -/
theorem sample?_mirror (t : Tracer K) (f : K → Option K) (x : K) :
    t.mirror.sample? (fun x => f (-x)) (-x) = (t.sample? f x).map Point.mirror := by
  unfold sample?
  simp only [neg_neg]
  cases f x with
  | none => rfl
  | some y =>
    simp only [apply_ite (Option.map Point.mirror)]
    rfl

variable [IsStrictOrderedRing K]

/-- **A mirrored walk looks at the mirrored place.** -/
theorem target_mirror (t : Tracer K) (d : Direction) (w : Walk K) :
    t.mirror.target d.opposite w.mirror = -t.target d w := by
  cases d with
  | backward =>
    have ahead : -w.previous.x + w.step = -(w.previous.x - w.step) := by ring
    rw [Exact.target_backward, ← min_neg_neg, ← ahead]
    exact Exact.target_forward t.mirror w.mirror
  | forward =>
    have back : -w.previous.x - w.step = -(w.previous.x + w.step) := by ring
    rw [Exact.target_forward, ← max_neg_neg, ← back]
    exact Exact.target_backward t.mirror w.mirror

end Tracer

namespace Walk

theorem isComplete_mirror (t : Tracer K) (d : Direction) (w : Walk K) :
    w.mirror.isComplete t.mirror d.opposite = w.isComplete t d := by
  unfold isComplete
  rw [Tracer.boundary_mirror]
  show (w.room == 0 || decide (-w.previous.x = -t.boundary d)) =
    (w.room == 0 || decide (w.previous.x = t.boundary d))
  simp only [neg_inj]

variable [IsStrictOrderedRing K]

theorem mirror_shorten (w : Walk K) (x : K) : (w.shorten x).mirror = w.mirror.shorten (-x) := by
  have length : (w.mirror.shorten (-x)).step = (w.shorten x).step := by
    have turned : -x - -w.previous.x = -(x - w.previous.x) := by ring
    rw [Exact.step_shorten, Exact.step_shorten]
    show |-x - -w.previous.x| / 2 = _
    rw [turned, abs_neg]
  show Walk.mk _ (w.shorten x).step _ _ = Walk.mk _ (w.mirror.shorten (-x)).step _ _
  rw [length]
  rfl

/-- **One step of a mirrored walk** is the mirrored step: both are over, or both shorten their step,
or both store a point. -/
theorem advance?_mirror (t : Tracer K) (f : K → Option K) (d : Direction) (w : Walk K) :
    w.mirror.advance? t.mirror (fun x => f (-x)) d.opposite = (w.advance? t f d).map mirror := by
  unfold advance?
  rw [isComplete_mirror, Tracer.target_mirror]
  simp only [Tracer.sample?_mirror, ← mirror_shorten]
  by_cases complete : w.isComplete t d = true
  · rw [if_pos complete, if_pos complete]
    rfl
  rw [if_neg complete, if_neg complete]
  cases t.sample? f (t.target d w) with
  | none =>
    simp only [Option.map_none, apply_ite (Option.map mirror)]
    rfl
  | some p =>
    have distance : p.mirror.distanceSquared w.mirror.previous =
        p.distanceSquared w.previous := Point.distanceSquared_mirror p w.previous
    simp only [Option.map_some, distance, apply_ite (Option.map mirror), mirror_move]
    rfl

end Walk

/-! ## Whole walks -/

namespace Tracer

variable [IsStrictOrderedRing K]

/-- **The two directions are mirror images.** From every seed, and for every partial function, the
points of a walk are, turned over and in the same order, the points of the walk in the opposite
direction, from the seed turned over, along the curve turned over, in the window turned over; so the
backward walk is a forward walk in the mirror. The one walk is over after as many rounds as the
other, or neither is ever over. -/
theorem walks_are_mirrored (t : Tracer K) (f : K → Option K) (rounds : Nat) (d : Direction)
    (seed : Point K) :
    t.mirror.walk? (fun x => f (-x)) rounds d.opposite seed.mirror =
      (t.walk? f rounds d seed).map (List.map Point.mirror) := by
  have run := Loop.run?_map (Walk.advance?_mirror t f d) rounds (.start t seed)
  rw [Walk.mirror_start] at run
  rw [walk?, walk?, run, Option.map_map, Option.map_map]
  rfl

/-- The backward walk on the line over the numbers from 0 on. Twice its step has grown and leads to
where the line has no value, so that it is shortened: once the walk goes on, and once it is over. -/
theorem ramp_walks_are_mirrored :
    let t : Tracer ℚ := ⟨⟨-1, 2, 10⟩, ⟨1, 1 / 2, 1, 4, 1 / 8, 5⟩⟩
    let ramp : ℚ → Option ℚ := fun x => if x < 0 then none else some x
    t.walk? ramp 5 .backward ⟨1, 1⟩ = some [⟨0, 0⟩, ⟨1 / 2, 1 / 2⟩] ∧
      t.mirror.walk? (fun x => ramp (-x)) 5 .forward ⟨-1, 1⟩ =
        some [⟨0, 0⟩, ⟨-1 / 2, 1 / 2⟩] := by
  intro t ramp
  have walk : t.walk? ramp 5 .backward ⟨1, 1⟩ = some [⟨0, 0⟩, ⟨1 / 2, 1 / 2⟩] := by
    decide +kernel
  have mirrored := walks_are_mirrored t ramp 5 .backward ⟨1, 1⟩
  rw [walk] at mirrored
  exact ⟨walk, mirrored.trans (by decide +kernel)⟩

end Tracer

end CurvePuzzle
