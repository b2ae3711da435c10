import Mathlib.Algebra.Order.Floor.Semiring
import Mathlib.Algebra.Order.Floor.Ring
import Mathlib.Data.Nat.Size
import Mathlib.Data.Rat.Floor
import CurvePuzzle.Proofs.ExactArithmetic
import CurvePuzzle.Proofs.Tracing

/-!
# The length of a trace

Over exact arithmetic every trace with positive steps ends, and after a number of rounds that only
the window and the sampling decide.

A walk stores nothing in the rounds that halve its step, and doubles it again where points are near,
so neither its points nor its step count the rounds. What every round lowers is a potential: the
halvings that are left until the step is shorter than any step has to be, and two for each point
that may still be stored, one for the point and one for the halving that it may bring back.

Every round of the scan takes the cursor on by the coarse step, since a branch ends at its seed or
behind it. That bounds the number of branches, and sets their ends apart.

* `Tracer.abs_target_sub_le`: a walk looks no farther than its step.
* `Sampling.halvings`, `Walk.potential`: what a walk uses up.
* `Walk.potential_lt_of_advance?`: one step of a walk.
* `Tracer.strides`, `Exact.countsDown`: what a scan uses up.
* `Exact.traces_end`: every trace ends, with ends of its branches that are a coarse step apart.
-/

set_option autoImplicit false

namespace CurvePuzzle

open scoped Exact

variable {K : Type} [Field K] [LinearOrder K]

/-- Are all steps of the sampling positive? -/
structure Sampling.Positive (s : Sampling K) : Prop where
  large : 0 < s.largeIncrement
  small : 0 < s.smallIncrement
  least : 0 < s.minStep

/-! ## How far a walk looks -/

/-- Does the place not lie beyond the edge of the window that a walk in this direction approaches? -/
def Window.Admits (w : Window K) : Direction → K → Prop
  | .backward, x => w.xStart ≤ x
  | .forward, x => x ≤ w.xEnd

theorem Window.admits_of_inside {w : Window K} {x : K} (low : w.xStart ≤ x) (high : x ≤ w.xEnd)
    (d : Direction) : w.Admits d x := by
  cases d with
  | backward => exact low
  | forward => exact high

namespace Tracer

variable [IsStrictOrderedRing K] {t : Tracer K} {d : Direction} {w : Walk K}

theorem admits_target (t : Tracer K) (d : Direction) (w : Walk K) :
    t.window.Admits d (t.target d w) := by
  cases d with
  | backward =>
    rw [Exact.target_backward]
    exact le_max_right _ _
  | forward =>
    rw [Exact.target_forward]
    exact min_le_right _ _

/-- **A walk looks no farther than its step.** Beyond the edge of the window it would look back at
the edge, from any distance. -/
theorem abs_target_sub_le (inside : t.window.Admits d w.previous.x) (positive : 0 ≤ w.step) :
    |t.target d w - w.previous.x| ≤ w.step := by
  cases d with
  | backward =>
    have nearest : t.target .backward w ≤ w.previous.x := by
      rw [Exact.target_backward]
      exact max_le (sub_le_self _ positive) inside
    have farthest : w.previous.x - w.step ≤ t.target .backward w := by
      rw [Exact.target_backward]
      exact le_max_left _ _
    rw [abs_le]
    constructor <;> linarith
  | forward =>
    have nearest : w.previous.x ≤ t.target .forward w := by
      rw [Exact.target_forward]
      exact le_min (le_add_of_nonneg_right positive) inside
    have farthest : t.target .forward w ≤ w.previous.x + w.step := by
      rw [Exact.target_forward]
      exact min_le_left _ _
    rw [abs_le]
    constructor <;> linarith

end Tracer

/-! ## What a walk uses up -/

namespace Sampling

/-- A step below this one is never shortened. -/
def finest (s : Sampling K) : K := min s.smallIncrement s.minStep

variable {s : Sampling K}

theorem Positive.finest (positive : s.Positive) : 0 < s.finest :=
  lt_min positive.small positive.least

variable [FloorRing K]

/-- How often a step can be halved until it is below the finest. -/
def halvings (s : Sampling K) (step : K) : Nat := Nat.size ⌊step / s.finest⌋₊

variable [IsStrictOrderedRing K]

theorem halvings_le_iff (positive : 0 < s.finest) {step : K} {n : Nat} :
    s.halvings step ≤ n ↔ step < 2 ^ n * s.finest := by
  rw [halvings, Nat.size_le, Nat.floor_lt' (pow_ne_zero n two_ne_zero), Nat.cast_pow,
    Nat.cast_ofNat, div_lt_iff₀ positive]

/-- Halving a step that is not below the finest uses up a halving. -/
theorem halvings_lt (positive : 0 < s.finest) {long short : K} (coarse : s.finest ≤ long)
    (half : short ≤ long / 2) : s.halvings short < s.halvings long := by
  have bound : long < 2 ^ s.halvings long * s.finest := (halvings_le_iff positive).1 le_rfl
  cases left : s.halvings long with
  | zero =>
    rw [left, pow_zero, one_mul] at bound
    exact absurd bound (not_lt.2 coarse)
  | succ n =>
    rw [left, pow_succ] at bound
    exact Nat.lt_succ_of_le ((halvings_le_iff positive).2 (by linarith))

/-- Doubling a step brings back no more than one. -/
theorem halvings_double (positive : 0 < s.finest) (step : K) :
    s.halvings (step * 2) ≤ s.halvings step + 1 := by
  have bound : step < 2 ^ s.halvings step * s.finest := (halvings_le_iff positive).1 le_rfl
  rw [halvings_le_iff positive, pow_succ]
  linarith

end Sampling

section Bounds

variable [FloorRing K]

namespace Walk

/-- What is left to a walk: halvings of its step, and two rounds for each point it has room for. -/
def potential (t : Tracer K) (w : Walk K) : Nat := 2 * w.room + t.sampling.halvings w.step

variable [IsStrictOrderedRing K] {t : Tracer K} {f : K → Option K} {d : Direction} {w w' : Walk K}

theorem potential_shorten_lt (positive : t.sampling.Positive)
    (inside : t.window.Admits d w.previous.x) (coarse : t.sampling.finest ≤ w.step) :
    (w.shorten (t.target d w)).potential t < w.potential t := by
  have reach := Tracer.abs_target_sub_le inside (positive.finest.le.trans coarse)
  refine Nat.add_lt_add_left (Sampling.halvings_lt positive.finest coarse ?_) _
  rw [Exact.step_shorten]
  linarith

theorem potential_move_lt (positive : t.sampling.Positive) (room : w.room ≠ 0) (p : Point K)
    (distance : K) : (w.move t p distance).potential t < w.potential t := by
  have back : t.sampling.halvings (w.move t p distance).step ≤ t.sampling.halvings w.step + 1 := by
    rw [Exact.step_move]
    split
    · exact Sampling.halvings_double positive.finest w.step
    · exact Nat.le_succ _
  show 2 * (w.room - 1) + t.sampling.halvings (w.move t p distance).step <
    2 * w.room + t.sampling.halvings w.step
  omega

/-- **A step of a walk lowers its potential**, and does not lead beyond the edge of the window. -/
theorem potential_lt_of_advance? (positive : t.sampling.Positive)
    (inside : t.window.Admits d w.previous.x) (step : w.advance? t f d = some w') :
    t.window.Admits d w'.previous.x ∧ w'.potential t < w.potential t := by
  obtain ⟨incomplete, cases⟩ := Tracer.advance?_cases step
  -- the two ways to shorten a step have thresholds of their own, neither below the finest step
  rcases cases with ⟨-, coarse, rfl⟩ | ⟨p, sample, ⟨-, coarse, rfl⟩ | ⟨-, rfl⟩⟩
  · exact ⟨inside, potential_shorten_lt positive inside ((min_le_left _ _).trans coarse.le)⟩
  · exact ⟨inside,
      potential_shorten_lt positive inside ((min_le_right _ _).trans (not_lt.1 coarse))⟩
  · have at_target : p.x = t.target d w := Tracer.x_of_sample? sample
    have kept : t.window.Admits d p.x := at_target ▸ Tracer.admits_target t d w
    exact ⟨kept, potential_move_lt positive (Tracer.room_ne_zero incomplete) p _⟩

end Walk

/-- More rounds than any walk of the tracer takes. -/
def Tracer.walkBound (t : Tracer K) : Nat :=
  2 * t.sampling.maxPoints + t.sampling.halvings t.sampling.smallIncrement + 1

/-- The coarse steps that lead from a place out of the window. -/
def Tracer.strides (t : Tracer K) (x : K) : Nat :=
  ⌊(t.window.xEnd - x) / t.sampling.largeIncrement + 1⌋₊

/-- More rounds than any scan of the tracer takes. -/
def Tracer.scanBound (t : Tracer K) : Nat := t.strides t.window.xStart + 1

end Bounds

/-! ## Walks end -/

namespace Exact

variable {t : Tracer K} {f : K → Option K} {rounds : Nat}

/-- A branch ends at its seed or behind it. -/
theorem seed_le_lastX {seed : Point K} {b : Branch K} (h : t.branch? f rounds seed = some b) :
    seed.x ≤ b.lastX := by
  have member := Tracer.seed_mem_of_branch? h
  obtain ⟨back, ahead, -, -, rfl⟩ := Tracer.branch?_eq_some_iff.1 h
  exact Branch.lastX_of_pairwise le_refl (pairwise_ofList _) member

/-- A branch that is found at a cursor ends there or behind it. -/
theorem le_lastX_of_sample? {c : K} {seed : Point K} {b : Branch K}
    (sample : t.sample? f c = some seed) (branch : t.branch? f rounds seed = some b) :
    c ≤ b.lastX := by
  have at_cursor : seed.x = c := Tracer.x_of_sample? sample
  exact at_cursor ▸ seed_le_lastX branch

variable [IsStrictOrderedRing K]

theorem exists_walk? [FloorRing K] (positive : t.sampling.Positive)
    (enough : t.walkBound ≤ rounds) {d : Direction} {seed : Point K}
    (inside : t.window.Admits d seed.x) : ∃ ps, t.walk? f rounds d seed = some ps := by
  have few : (Walk.start t seed).potential t < rounds := enough
  have keep (w w' : Walk K) (inside : t.window.Admits d w.previous.x)
      (step : w.advance? t f d = some w') :
      t.window.Admits d w'.previous.x ∧ w'.potential t < w.potential t :=
    Walk.potential_lt_of_advance? positive inside step
  obtain ⟨w, ended⟩ := Loop.exists_run? (Walk.potential t) keep inside few
  exact ⟨w.points, Option.map_eq_some_iff.2 ⟨w, ended, rfl⟩⟩

/-! ## The scan ends -/

section Strides

variable [FloorRing K]

/-- A coarse step from a place, or from behind it, leaves fewer of them. -/
theorem strides_lt (large : 0 < t.sampling.largeIncrement) {c x : K} (inside : c ≤ t.window.xEnd)
    (ahead : c ≤ x) : t.strides (x + t.sampling.largeIncrement) < t.strides c := by
  have left : 0 ≤ (t.window.xEnd - c) / t.sampling.largeIncrement :=
    div_nonneg (sub_nonneg.2 inside) large.le
  have less : (t.window.xEnd - (x + t.sampling.largeIncrement)) / t.sampling.largeIncrement + 1 ≤
      (t.window.xEnd - c) / t.sampling.largeIncrement := by
    rw [← sub_sub, sub_div, div_self large.ne', sub_add_cancel]
    exact div_le_div_of_nonneg_right (sub_le_sub_left ahead _) large.le
  unfold Tracer.strides
  rw [Nat.floor_add_one left]
  exact Nat.lt_succ_of_le (Nat.floor_le_floor less)

theorem strides_le (t : Tracer K) (x : K) :
    t.strides x ≤ ⌊(t.window.xEnd - x) / t.sampling.largeIncrement⌋₊ + 1 := by
  refine Nat.le_of_lt_succ ((Nat.floor_lt' (Nat.succ_ne_zero _)).2 ?_)
  have beyond := Nat.lt_floor_add_one ((t.window.xEnd - x) / t.sampling.largeIncrement)
  rw [Nat.cast_succ, Nat.cast_succ]
  linarith

/-- **What is left of the window** gets smaller by a coarse step with every round of the scan. -/
theorem countsDown (large : 0 < t.sampling.largeIncrement) :
    t.CountsDown f rounds (t.window.xStart ≤ ·) t.strides := by
  have resume {c x : K} (low : t.window.xStart ≤ c) (inside : c ≤ t.window.xEnd) (ahead : c ≤ x) :
      t.window.xStart ≤ x + t.sampling.largeIncrement ∧
        t.strides (x + t.sampling.largeIncrement) < t.strides c :=
    ⟨by linarith, strides_lt large inside ahead⟩
  constructor
  · intro c low inside
    exact resume low inside le_rfl
  · intro c seed b low inside sample branch
    exact resume low inside (le_lastX_of_sample? sample branch)

theorem exists_trace? (positive : t.sampling.Positive) (f : K → Option K) :
    ∃ bs, t.trace? f (max t.walkBound t.scanBound) = some bs := by
  have enough : t.strides t.window.xStart < max t.walkBound t.scanBound :=
    Nat.lt_of_lt_of_le (Nat.lt_succ_self _) (le_max_right _ _)
  refine (countsDown positive.large).exists_scan? ?_ le_rfl enough
  intro c seed low inside sample
  have at_cursor : seed.x = c := Tracer.x_of_sample? sample
  exact Tracer.exists_branch?_of_walks fun d =>
    exists_walk? positive (le_max_left _ _)
      (Window.admits_of_inside (at_cursor.symm ▸ low) (at_cursor.symm ▸ inside) d)

end Strides

/-! ## The branches of a trace -/

theorem le_lastX_of_scan? (large : 0 < t.sampling.largeIncrement) {n : Nat} {c : K}
    {bs : List (Branch K)} (h : t.scan? f rounds n c = some bs) : ∀ b ∈ bs, c ≤ b.lastX := by
  refine Tracer.scan?_induction (P := fun c' => c ≤ c') h le_rfl ?_ ?_
  · intro c' behind _
    linarith
  · intro c' seed b behind _ sample branch
    have ahead := le_lastX_of_sample? sample branch
    constructor <;> linarith

/-- **Every trace ends** over exact arithmetic, if the steps of its sampling are positive. Both walks
from every seed in the window are over in fewer rounds than `walkBound`, and the scan in fewer than
`scanBound`, whatever the function. Each branch ends at least a coarse step behind all branches
before it, and there are no more branches than such ends in the window. -/
theorem traces_end [FloorRing K] {t : Tracer K} (positive : t.sampling.Positive)
    (f : K → Option K) :
    (∀ d seed, t.window.xStart ≤ seed.x → seed.x ≤ t.window.xEnd →
        ∃ ps, ∀ rounds, t.walkBound ≤ rounds → t.walk? f rounds d seed = some ps) ∧
      ∃ bs, (∀ rounds, max t.walkBound t.scanBound ≤ rounds → t.trace? f rounds = some bs) ∧
        (bs.Pairwise fun b b' => b.lastX + t.sampling.largeIncrement ≤ b'.lastX) ∧
          bs.length ≤ ⌊(t.window.xEnd - t.window.xStart) / t.sampling.largeIncrement⌋₊ + 1 := by
  constructor
  · intro d seed low high
    obtain ⟨ps, walk⟩ :=
      exists_walk? (f := f) positive le_rfl (Window.admits_of_inside low high d)
    exact ⟨ps, fun _ le => Tracer.walk?_mono walk le⟩
  · obtain ⟨bs, traced⟩ := exists_trace? positive f
    refine ⟨bs, fun _ le => Tracer.trace?_mono traced le, ?_, ?_⟩
    · exact Tracer.scan?_pairwise traced fun b _ m rest scanned =>
        le_lastX_of_scan? positive.large scanned
    · exact ((countsDown positive.large).length_le le_rfl traced).trans (strides_le t _)

/-- The line `y = 0` from 0 to `3 / 2`, with walks of one point: two branches, as many as there may
be. -/
theorem traces_end_two_branches :
    let t : Tracer ℚ := ⟨⟨0, 3 / 2, 1⟩, ⟨1, 1 / 4, 0, 1, 1 / 8, 1⟩⟩
    let line : ℚ → Option ℚ := fun _ => some 0
    t.walkBound = 5 ∧ t.scanBound = 3 ∧ (∃ ps, t.walk? line 5 .backward ⟨5 / 4, 0⟩ = some ps) ∧
      ∃ bs, t.trace? line 5 = some bs ∧ bs.map Branch.lastX = [1 / 4, 3 / 2] ∧
        (bs.Pairwise fun b b' => b.lastX + 1 ≤ b'.lastX) ∧ bs.length ≤ ⌊(3 / 2 - 0 : ℚ) / 1⌋₊ + 1 := by
  intro t line
  let left : Branch ℚ := ⟨⟨0, 0⟩, ⟨#[⟨0, 0⟩, ⟨1 / 4, 0⟩]⟩⟩
  let right : Branch ℚ := ⟨⟨5 / 4, 0⟩, ⟨#[⟨1, 0⟩, ⟨5 / 4, 0⟩, ⟨3 / 2, 0⟩]⟩⟩
  have first : t.branch? line 5 left.seed = some left := by
    refine Tracer.branch?_eq_some_iff.2
      ⟨[], [⟨1 / 4, 0⟩], by decide +kernel, by decide +kernel, ?_⟩
    rw [Run.ofList, List.mergeSort_of_pairwise (by decide +kernel)]
    rfl
  have second : t.branch? line 5 right.seed = some right := by
    refine Tracer.branch?_eq_some_iff.2
      ⟨[⟨1, 0⟩], [⟨3 / 2, 0⟩], by decide +kernel, by decide +kernel, ?_⟩
    rw [Run.ofList, List.mergeSort_of_pairwise (by decide +kernel)]
    rfl
  have traced : t.trace? line 5 = some [left, right] := by
    refine Tracer.scan?_succ_eq_some_iff.2 (.inr (.inr ⟨by decide +kernel, left.seed, left, [right],
      by decide +kernel, first, ?_, rfl⟩))
    refine Tracer.scan?_succ_eq_some_iff.2 (.inr (.inr ⟨by decide +kernel, right.seed, right, [],
      by decide +kernel, second, ?_, rfl⟩))
    exact Tracer.scan?_succ_eq_some_iff.2 (.inl ⟨by decide +kernel, rfl⟩)
  have walkBound : t.walkBound = 5 := by decide +kernel
  have scanBound : t.scanBound = 3 := by decide +kernel
  have positive : t.sampling.Positive :=
    ⟨by decide +kernel, by decide +kernel, by decide +kernel⟩
  obtain ⟨walks, bs, ends, found⟩ := traces_end positive line
  have same : bs = [left, right] := Option.some.inj ((ends 5 (by decide +kernel)).symm.trans traced)
  obtain ⟨ps, walk⟩ := walks .backward ⟨5 / 4, 0⟩ (by decide +kernel) (by decide +kernel)
  exact ⟨walkBound, scanBound, ⟨ps, walk 5 walkBound.le⟩, _, traced, by decide +kernel,
    same ▸ found⟩

end Exact

end CurvePuzzle
