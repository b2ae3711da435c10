import CurvePuzzle.Proofs.FloatSpacing
import CurvePuzzle.Proofs.TracedRuns

/-!
# When tracing ends

A trace has two loops without a limit of their own. The coarse scan ends when its cursor rises, and
a walk ends when its step falls as long as no point is stored. Rounding can break both: valid
settings may have a step that is nothing beside the edges of the window. With steps that the window
resolves, every trace ends.

* `Window.grain`, `Tracer.Resolved`: the spacing of the floats of a window, and steps that show.
* `Tracer.amount_target_bound`: how far a walk looks, up to rounding.
* `Walk.measure_lt_of_advance?`: a step of a walk lowers its measure.
* `Tracer.exists_trace`: with resolved steps, every formula is traced.
* `Tracer.trace_is_endless`: accepted settings, and formulas whose traces never end.
-/

set_option autoImplicit false

namespace CurvePuzzle

open Binary64

/-! ## Steps that show -/

/-- The largest distance of neighbouring floats of the window, in units of the smallest float. -/
def Window.grain (w : Window Float) : Nat := max (spacing (code w.xStart)) (spacing (code w.xEnd))

/-- Is the step positive, and at least twice as long as the grain of the window? -/
def Window.Resolves (w : Window Float) (s : Float) : Prop :=
  0.0 < s ∧ 2 * w.grain ≤ units (code s)

instance (w : Window Float) (s : Float) : Decidable (w.Resolves s) :=
  inferInstanceAs (Decidable (_ ∧ _))

/-- Does the window resolve the steps of its sampling, and is it of finite width? -/
structure Tracer.Resolved (t : Tracer Float) : Prop where
  width : (t.window.xEnd - t.window.xStart).isFinite = true
  large : t.window.Resolves t.sampling.largeIncrement
  small : t.window.Resolves t.sampling.smallIncrement
  least : t.window.Resolves t.sampling.minStep

namespace Tracer

variable {t : Tracer Float} {f : Float → Option Float}

theorem spacing_le_grain (h : t.Valid) {x : Float} (hx : t.window.Spans x) :
    spacing (code x) ≤ t.window.grain := by
  obtain ⟨-, low, high⟩ := (spans_iff h).1 hx
  have between : code x ≤ code t.window.xStart ∨ code x ≤ code t.window.xEnd := by
    rw [← natAbs_place, ← natAbs_place, ← natAbs_place]
    omega
  unfold Window.grain
  rcases between with le | le
  · exact Nat.le_trans (spacing_le_spacing le) (Nat.le_max_left _ _)
  · exact Nat.le_trans (spacing_le_spacing le) (Nat.le_max_right _ _)

theorem grain_pos (w : Window Float) : 0 < w.grain :=
  Nat.lt_of_lt_of_le (spacing_pos _) (Nat.le_max_left _ _)

/-- The distance of two places of a window of finite width has a code of its own. -/
theorem code_sub_lt (h : t.Valid) (width : (t.window.xEnd - t.window.xStart).isFinite = true)
    {x y : Float} (hx : t.window.Spans x) (hy : t.window.Spans y) :
    nearestCode (amount x - amount y).natAbs 1 < infinityCode := by
  have finite := (isFinite_iff _).1 width
  rw [(sum_sub h.stop h.start).code] at finite
  obtain ⟨-, lowX, highX⟩ := (spans_iff h).1 hx
  obtain ⟨-, lowY, highY⟩ := (spans_iff h).1 hy
  rw [← amount_le_amount_iff] at lowX highX lowY highY
  have rise := nearestCode_mono (a := (amount x - amount y).natAbs)
    (c := (amount t.window.xEnd - amount t.window.xStart).natAbs) Nat.one_pos Nat.one_pos (by omega)
  omega

/-! ## How far a walk looks -/

/-- A step in a direction is as long as the step. -/
theorem stands_unit_mul (d : Direction) {s : Float} (hs : IsLength s) :
    code (d.unit * s) = code s ∧ isNegative (d.unit * s) = decide (d = .backward) := by
  cases d with
  | forward =>
    show code (1.0 * s) = code s ∧ isNegative (1.0 * s) = false
    rw [one_mul_eq hs.defined]
    exact ⟨rfl, hs.positive⟩
  | backward =>
    show code (-1.0 * s) = code s ∧ isNegative (-1.0 * s) = true
    have back := stands_neg hs.defined
    rw [hs.positive] at back
    rw [neg_one_mul_eq hs.defined]
    exact ⟨back.code, signOf_inj back.sign⟩

/-- **A walk looks no farther than its step**, up to half the grain of the window. -/
theorem amount_target_bound (h : t.Valid) {d : Direction} {w : Walk Float} (hs : IsLength w.step)
    (finite : code w.step < infinityCode) (inside : t.window.Spans w.previous.x)
    (incomplete : w.isComplete t d = false) :
    2 * (amount (t.target d w) - amount w.previous.x).natAbs ≤
      2 * units (code w.step) + t.window.grain := by
  obtain ⟨within, -⟩ := target_spec h hs inside incomplete
  have fine := spacing_le_grain h within
  obtain ⟨sameCode, sign⟩ := stands_unit_mul d hs
  have finiteStep : (d.unit * w.step).isFinite = true := (isFinite_iff _).2 (by omega)
  have sum := sum_add (h.finite inside) finiteStep
  have stepAmount := amount_eq (d.unit * w.step)
  rw [sameCode, sign] at stepAmount
  obtain ⟨-, low, high⟩ := (spans_iff h).1 inside
  rw [← amount_le_amount_iff] at low high
  have beyond {v : Float} (hv : v.isFinite = true) :=
    sum.bounds_of_place (Nat.le_of_lt ((isFinite_iff v).1 hv))
  -- a target at the edge of the window lies before the end of the step, any other is that end
  unfold target at within fine ⊢
  cases d with
  | backward =>
    simp only [decide_true, if_true] at stepAmount
    simp only at within fine ⊢
    split
    · rename_i clipped
      have reached := (beyond h.start).2 ((lt_iff _ _).1 clipped).2.2
      omega
    · rename_i before
      rw [if_neg before] at within fine
      have bounds := amount_bounds_of_sum sum ((isFinite_iff _).1 (h.finite within))
      omega
  | forward =>
    simp only [reduceCtorEq, decide_false, Bool.false_eq_true, if_false] at stepAmount
    simp only at within fine ⊢
    split
    · rename_i clipped
      have reached := (beyond h.stop).1 ((lt_iff _ _).1 clipped).2.2
      omega
    · rename_i before
      rw [if_neg before] at within fine
      have bounds := amount_bounds_of_sum sum ((isFinite_iff _).1 (h.finite within))
      omega

/-- **Half the way to where a walk looks is shorter than its step**, if the window resolves the
step. -/
theorem code_half_target_lt (h : t.Valid)
    (width : (t.window.xEnd - t.window.xStart).isFinite = true) {d : Direction} {w : Walk Float}
    (hs : IsLength w.step) (inside : t.window.Spans w.previous.x)
    (incomplete : w.isComplete t d = false) (long : 2 * t.window.grain ≤ units (code w.step)) :
    code (w.shorten (t.target d w)).step < code w.step := by
  obtain ⟨within, -⟩ := target_spec h hs inside incomplete
  have narrow := code_sub_lt h width within inside
  have grain := grain_pos t.window
  have difference := sum_sub (h.finite within) (h.finite inside)
  have magnitude := (stands_abs difference.defined).code
  rw [difference.code, Nat.min_eq_right (Nat.le_of_lt narrow)] at magnitude
  have near : 2 * (amount (t.target d w) - amount w.previous.x).natAbs ≤
      2 * units (code w.step) + t.window.grain := by
    rcases Nat.lt_or_eq_of_le hs.defined with finite | infinite
    · exact amount_target_bound h hs finite inside incomplete
    · -- nothing in the window is as far away as an infinite step
      suffices (amount (t.target d w) - amount w.previous.x).natAbs ≤ units (code w.step) by omega
      by_contra far
      have rise := nearestCode_mono (a := units (code w.step))
        (c := (amount (t.target d w) - amount w.previous.x).natAbs) Nat.one_pos Nat.one_pos
        (by omega)
      rw [nearestCode_units] at rise
      omega
  have short := units_nearestCode_le (le_two_mul_units_pred grain long near)
  rw [← magnitude] at short narrow
  have half : code (w.shorten (t.target d w)).step ≤ code w.step - 1 := code_half_le narrow short
  have positive : 0 < code w.step := by
    rw [Nat.pos_iff_ne_zero]
    intro zero
    rw [zero, units_zero] at long
    omega
  omega

end Tracer

/-! ## Walks end -/

namespace Walk

variable {t : Tracer Float} {f : Float → Option Float} {d : Direction} {seed : Point Float}
  {w w' : Walk Float}

/-- What the steps of a walk lower: each point it may still store counts more than any step. -/
def measure (w : Walk Float) : Nat := w.room * (infinityCode + 1) + code w.step

theorem measure_shorten_lt {x : Float} (less : code (w.shorten x).step < code w.step) :
    (w.shorten x).measure < w.measure :=
  Nat.add_lt_add_left less _

theorem measure_move_lt {p : Point Float} {distance : Float} (room : w.room ≠ 0)
    (defined : code (w.move t p distance).step ≤ infinityCode) :
    (w.move t p distance).measure < w.measure := by
  obtain ⟨n, more⟩ := Nat.exists_eq_succ_of_ne_zero room
  have less : (w.move t p distance).room = n := by
    show w.room - 1 = n
    omega
  rw [measure, measure, less, more, Nat.succ_mul]
  omega

/-- A walk whose step the window resolves: one that is not below a resolved one. -/
theorem long_of_not_lt {s least : Float} (hs : IsLength s) (resolved : t.window.Resolves least)
    (not : ¬s < least) : 2 * t.window.grain ≤ units (code s) := by
  obtain ⟨positive, long⟩ := resolved
  have length := isLength_of_pos positive
  have above : code least ≤ code s := by
    have places : place s = code s ∧ place least = code least := by
      rw [place, place, hs.positive, length.positive]
      exact ⟨rfl, rfl⟩
    rw [lt_iff] at not
    have := hs.defined
    have := length.defined
    omega
  exact Nat.le_trans long (units_le_units above)

/-- **A step of a walk lowers its measure.** -/
theorem measure_lt_of_advance? (h : t.Valid) (resolved : t.Resolved) (inv : Proper t f d seed w)
    (step : w.advance? t f d = some w') : w'.measure < w.measure := by
  have kept := proper_of_advance? h inv step
  obtain ⟨incomplete, cases⟩ := Tracer.advance?_cases step
  rcases cases with ⟨-, coarse, rfl⟩ | ⟨p, -, ⟨-, coarse, rfl⟩ | ⟨-, rfl⟩⟩
  · have long : ¬w.step < t.sampling.smallIncrement := by
      rw [lt_iff] at coarse ⊢
      omega
    exact measure_shorten_lt (Tracer.code_half_target_lt h resolved.width inv.step
      inv.previous.spans incomplete (long_of_not_lt inv.step resolved.small long))
  · exact measure_shorten_lt (Tracer.code_half_target_lt h resolved.width inv.step
      inv.previous.spans incomplete (long_of_not_lt inv.step resolved.least coarse))
  · exact measure_move_lt (Tracer.room_ne_zero incomplete) kept.step.defined

end Walk

namespace Tracer

variable {t : Tracer Float} {f : Float → Option Float}

/-- More rounds than any walk of the tracer takes. -/
def walkRounds (t : Tracer Float) : Nat :=
  t.sampling.maxPoints * (infinityCode + 1) + infinityCode + 1

theorem exists_walk? (h : t.Valid) (resolved : t.Resolved) {rounds : Nat}
    (enough : t.walkRounds ≤ rounds) (d : Direction) {seed : Point Float}
    (hseed : t.Stored f seed) : ∃ ps, t.walk? f rounds d seed = some ps := by
  have few : (Walk.start t seed).measure < rounds := by
    have := h.small.defined
    unfold walkRounds at enough
    show t.sampling.maxPoints * (infinityCode + 1) + code t.sampling.smallIncrement < rounds
    omega
  have keep (w w' : Walk Float) (inv : w.Proper t f d seed) (step : w.advance? t f d = some w') :
      w'.Proper t f d seed ∧ w'.measure < w.measure :=
    ⟨Walk.proper_of_advance? h inv step, Walk.measure_lt_of_advance? h resolved inv step⟩
  obtain ⟨w, ended⟩ := Loop.exists_run? Walk.measure keep (Walk.proper_start h hseed) few
  exact ⟨w.points, Option.map_eq_some_iff.2 ⟨w, ended, rfl⟩⟩

/-! ## The scan ends -/

/-- The cursor of the scan rises by every step. -/
theorem place_lt_cursor (h : t.Valid) (resolved : t.Resolved) {x : Float}
    (hx : t.window.Spans x) : place x < place (x + t.sampling.largeIncrement) := by
  have fine := spacing_le_grain h hx
  have long := resolved.large.2
  exact place_lt_place_add (h.finite hx) h.large.defined h.large.positive (by omega)

/-- The floats from a place to the end of the window. -/
def placesLeft (t : Tracer Float) (c : Float) : Nat := (place t.window.xEnd + 1 - place c).toNat

/-- **What is left of the window** gets smaller with every round of the scan. -/
theorem countsDown (h : t.Valid) (resolved : t.Resolved) (rounds : Nat) :
    t.CountsDown f rounds t.IsCursor t.placesLeft := by
  have resume {c x : Float} (inside : c ≤ t.window.xEnd) (hx : t.window.Spans x)
      (ahead : place c ≤ place x) : t.IsCursor (x + t.sampling.largeIncrement) ∧
        t.placesLeft (x + t.sampling.largeIncrement) < t.placesLeft c := by
    have high := ((le_iff _ _).1 inside).2.2
    have rise := place_lt_cursor h resolved hx
    refine ⟨(cursor_spec h hx).1, ?_⟩
    unfold placesLeft
    omega
  constructor
  · intro c hc inside
    exact resume inside (hc.spans h inside) (Int.le_refl _)
  · intro c seed b hc inside sample branch
    obtain ⟨spansLast, ahead⟩ := (hc.found h inside sample branch).spec h
    exact resume inside spansLast ahead

theorem exists_trace? (h : t.Valid) (resolved : t.Resolved) (f : Float → Option Float) :
    ∃ rounds bs, t.trace? f rounds = some bs := by
  let rounds := t.walkRounds + t.placesLeft t.window.xStart + 1
  have enough : t.walkRounds ≤ rounds := by omega
  refine ⟨rounds, (countsDown h resolved rounds).exists_scan? ?_ (isCursor_start h) (by omega)⟩
  intro c seed hc inside sample
  exact exists_branch?_of_walks fun d =>
    exists_walk? h resolved enough d (hc.stored h inside sample)

theorem exists_traceFormula? (h : t.Valid) (resolved : t.Resolved) (e : Formula Float) :
    ∃ rounds branches, t.traceFormula? e rounds = some branches := by
  unfold traceFormula?
  split
  · exact ⟨0, [], rfl⟩
  · exact exists_trace? h resolved _

/-- The window of the standard settings resolves the steps of their sampling. -/
theorem resolved_standard :
    Tracer.Resolved ⟨Settings.standard.window, Settings.standard.sampling⟩ :=
  ⟨by decide +kernel, by decide +kernel, by decide +kernel, by decide +kernel⟩

/-- **Every trace ends** whose window is finite and resolves the steps of its sampling, whatever the
formula. -/
theorem exists_trace {settings : Settings} {t : Tracer Float} (valid : settings.validate = .ok ())
    (start : settings.window.xStart.isFinite = true) (stop : settings.window.xEnd.isFinite = true)
    (made : settings.tracer = .ok t) (resolved : t.Resolved) (e : Formula Float) :
    ∃ rounds branches, t.traceFormula? e rounds = some branches :=
  exists_traceFormula? (Settings.valid_of_validate valid start stop made) resolved e

/-- The settings of a game that sets none are resolved, so the hyperbola is traced. -/
theorem exists_trace_standard :
    ∃ t : Tracer Float, Settings.standard.tracer = .ok t ∧
      ∃ rounds branches,
        t.traceFormula? (.product [(.direct, .const 1.0), (.inverse, .var)]) rounds =
          some branches := by
  have valid := Settings.validate_standard
  have made := Settings.tracer_of_validate valid
  exact ⟨_, made,
    exists_trace valid (by decide +kernel) (by decide +kernel) made resolved_standard _⟩

end Tracer

/-! ## Traces without an end -/

/-- Does the walk go on with a shorter step, because the next point is too far away? -/
def Walk.leaps (t : Tracer Float) (f : Float → Option Float) (d : Direction) (w : Walk Float) :
    Bool :=
  !w.isComplete t d && !decide (w.step < t.sampling.minStep) &&
    (t.sample? f (t.target d w)).any fun p =>
      decide (t.sampling.maxDistanceSquared < p.distanceSquared w.previous)

theorem Walk.advance?_of_leaps {t : Tracer Float} {f : Float → Option Float} {d : Direction}
    {w : Walk Float} (h : w.leaps t f d = true) :
    w.advance? t f d = some (w.shorten (t.target d w)) := by
  simp only [leaps, Bool.and_eq_true, Bool.not_eq_true', decide_eq_false_iff_not,
    Option.any_eq_true, decide_eq_true_eq] at h
  obtain ⟨⟨incomplete, coarse⟩, p, sample, far⟩ := h
  rw [advance?, if_neg (by rw [incomplete]; exact Bool.false_ne_true)]
  simp only [sample]
  rw [if_pos far, if_neg coarse]

namespace Tracer

/-- The walk at its seed, with another step. -/
def startWith (t : Tracer Float) (seed : Point Float) (s : Float) : Walk Float :=
  { Walk.start t seed with step := s }

/-- The steps of a walk that leaps from its seed again and again. -/
def leapStep (t : Tracer Float) (d : Direction) (seed : Point Float) : Nat → Float
  | 0 => t.sampling.smallIncrement
  | n + 1 =>
    let w := t.startWith seed (t.leapStep d seed n)
    (w.shorten (t.target d w)).step

variable {t : Tracer Float} {f : Float → Option Float}

/-- A walk stays at its seed when it leaps with its first steps, until one does not change. -/
theorem walk?_eq_none {d : Direction} {seed : Point Float} {k : Nat}
    (leaps : ∀ n < k + 1, (t.startWith seed (t.leapStep d seed n)).leaps t f d = true)
    (fixed : t.leapStep d seed (k + 1) = t.leapStep d seed k) (rounds : Nat) :
    t.walk? f rounds d seed = none := by
  rw [walk?, Option.map_eq_none_iff]
  refine Loop.run?_eq_none (P := fun w => ∃ n < k + 1, w = t.startWith seed (t.leapStep d seed n))
    ?_ rounds ⟨0, Nat.succ_pos k, rfl⟩
  rintro w ⟨n, small, rfl⟩
  have next : (t.startWith seed (t.leapStep d seed n)).advance? t f d =
      some (t.startWith seed (t.leapStep d seed (n + 1))) := Walk.advance?_of_leaps (leaps n small)
  refine ⟨_, next, ?_⟩
  rcases Nat.lt_or_eq_of_le (Nat.le_of_lt_succ small) with more | rfl
  · exact ⟨n + 1, Nat.succ_lt_succ more, rfl⟩
  · exact ⟨n, small, by rw [fixed]⟩

/-- The scan stays where the function has no value and the coarse step is lost in rounding. -/
theorem scan?_eq_none {c : Float} (inside : c ≤ t.window.xEnd) (undefined : t.sample? f c = none)
    (stuck : c + t.sampling.largeIncrement = c) (rounds n : Nat) :
    t.scan? f rounds n c = none := by
  induction n with
  | zero => rfl
  | succ n ih =>
    rw [scan?, if_pos inside, undefined]
    simp only
    rw [stuck]
    exact ih

/-- A scan that comes upon an endless walk is endless. -/
theorem scan?_eq_none_of_walk? {c : Float} {seed : Point Float} {rounds : Nat}
    (inside : c ≤ t.window.xEnd) (sample : t.sample? f c = some seed)
    (endless : t.walk? f rounds .forward seed = none) (n : Nat) : t.scan? f rounds n c = none := by
  cases n with
  | zero => rfl
  | succ n =>
    have no_branch : t.branch? f rounds seed = none := by
      rw [branch?, endless]
      cases t.walk? f rounds .backward seed <;> rfl
    rw [scan?, if_pos inside, sample]
    simp only
    rw [no_branch]

end Tracer

/-- Are the settings accepted, with a finite window, though the trace of the formula never ends? -/
def Settings.Endless (s : Settings) (e : Formula Float) : Prop :=
  s.validate = .ok () ∧ s.window.xStart.isFinite = true ∧ s.window.xEnd.isFinite = true ∧
    ∃ t : Tracer Float, s.tracer = .ok t ∧ ∀ rounds, t.traceFormula? e rounds = none

namespace Settings

theorem endless_of_scan {s : Settings} {e : Formula Float} (accepted : s.validate = .ok ())
    (finite : s.window.xStart.isFinite = true ∧ s.window.xEnd.isFinite = true)
    (valid : e.isInvalid = false)
    (scan : ∀ rounds n, Tracer.scan? ⟨s.window, s.sampling⟩ (fun x => e.eval? x) rounds n
      s.window.xStart = none) : s.Endless e := by
  refine ⟨accepted, finite.1, finite.2, _, tracer_of_validate accepted, ?_⟩
  intro rounds
  rw [Tracer.traceFormula?, if_neg (by rw [valid]; exact Bool.false_ne_true), Tracer.trace?]
  exact scan rounds rounds

/-- Settings whose coarse step is positive, but lost beside the edge of the window. -/
theorem endless_of_coarse_step :
    Settings.Endless
      { standard with sampling := { Sampling.standard with largeIncrement := 1e-300 } }
      (.func .ln (.sum [(.direct, .const 0.0), (.inverse, .const 1.0)])) := by
  refine endless_of_scan (validate_of_isNone (by decide +kernel)) (by decide +kernel) rfl ?_
  intro rounds n
  exact Tracer.scan?_eq_none (by decide +kernel) (by decide +kernel) (by decide +kernel) rounds n

end Settings

/-- The standard settings in a window in which the floats are `2 ^ -13` apart. -/
def Settings.farOff : Settings :=
  { standard with window := ⟨1000000000000.0 + 0.0001220703125, 1000000000010.0, 1000.0⟩ }

/-- The sign of the value of a formula. -/
def Formula.sign (e : Formula Float) : Formula Float :=
  .product [(.direct, .const 1.0), (.inverse, e), (.direct, .func .abs e)]

/-- A jump in the middle between the first two floats of the window. -/
def Formula.jump : Formula Float :=
  sign (.sum [(.direct, .var), (.inverse, .const 1000000000000.0),
    (.inverse, .const 0.00018310546875)])

/-- The standard sampling, and a jump from -1 to 1. Half of the spacing of the floats there is no
step below the least, and it is rounded to a whole spacing, so no step gets small enough to end the
walk. -/
theorem Settings.endless_of_jump : Settings.farOff.Endless .jump := by
  refine endless_of_scan (validate_of_isNone (by decide +kernel)) (by decide +kernel) rfl ?_
  intro rounds n
  have sample : Tracer.sample? ⟨farOff.window, farOff.sampling⟩ (fun x => Formula.jump.eval? x)
      farOff.window.xStart = some ⟨farOff.window.xStart, -1.0⟩ := by decide +kernel
  refine Tracer.scan?_eq_none_of_walk? (by decide +kernel) sample ?_ n
  -- four halvings lead to the step that does not change any more
  exact Tracer.walk?_eq_none (k := 4) (by decide +kernel) (by decide +kernel) rounds

/-- **Tracing need not end**, though the settings are accepted and the window is finite: the scan
may stand still, and so may a walk with the standard sampling. -/
theorem Tracer.trace_is_endless :
    (∃ (settings : Settings) (e : Formula Float), settings.Endless e) ∧
      ∃ (settings : Settings) (e : Formula Float),
        settings.sampling = .standard ∧ settings.Endless e :=
  ⟨⟨_, _, Settings.endless_of_coarse_step⟩, _, _, rfl, Settings.endless_of_jump⟩

end CurvePuzzle
