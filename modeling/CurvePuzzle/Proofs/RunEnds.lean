import CurvePuzzle.Proofs.FloatUndefined
import CurvePuzzle.Proofs.RunOrder
import CurvePuzzle.Proofs.TraceEnds

/-!
# Why runs end

A walk is over at the edge of the window, at its limit of points, where the function ends, and at a
jump. In the last two cases it has looked from its last point as far as its step, and the step is no
longer than the sampling says. Nor is it zero: a walk that looks at its own place finds the point at
which it stands, so its step is never halved there. Only halving the smallest float gives zero.

* `Window.reach`, `Tracer.target_eq_reach`: where a step leads.
* `Tracer.Underflows`: a step is lost by halving.
* `Walk.Steady`, `Walk.steady_of_advance?`: what a walk keeps of its step and its room.
* `Tracer.Ends`, `Tracer.ends_of_stopped`: why a walk is over.
* `Tracer.runs_end_for_a_reason`: both ends of all runs of a formula.
-/

set_option autoImplicit false

namespace CurvePuzzle

open Binary64

/-! ## Floats next to nothing -/

namespace Binary64

theorem SameNumber.code_eq {v w : Float} (h : SameNumber v w) (hw : code w ≤ infinityCode) :
    code v = code w := by
  rcases h with same | ⟨-, undefined⟩
  · exact same.code_eq
  · rw [isNaN_iff] at undefined
    omega

theorem code_zero_add {v w : Float} (zero : code v = 0) (hw : code w ≤ infinityCode) :
    code (v + w) = code w := by
  have none : SameNumber v 0.0 := .inl (.inr ⟨zero, by decide⟩)
  exact ((none.add (.refl w)).trans (sameNumber_zero_add w)).code_eq hw

/-- Adding a zero moves nothing. -/
theorem place_add_zero {v w : Float} (hv : v.isFinite = true) (zero : code w = 0) :
    place (v + w) = place v := by
  have hw : w.isFinite = true := by
    rw [isFinite_iff, zero]
    exact infinityCode_pos
  have none : amount w = 0 := by
    rw [amount_eq, zero, units_zero]
    simp
  rw [(sum_add hv hw).place, none, Int.add_zero, nearestPlace_amount]
  exact Nat.le_of_lt ((isFinite_iff v).1 hv)

/-- Floats that are not at the same place have a difference, however near they are. -/
theorem code_sub_ne_zero {v w : Float} (hv : v.isFinite = true) (hw : w.isFinite = true)
    (apart : place v ≠ place w) : code (v - w) ≠ 0 := by
  have amounts : amount v ≠ amount w := by
    have above := amount_le_amount_iff (v := v) (w := w)
    have below := amount_le_amount_iff (v := w) (w := v)
    omega
  have rise := nearestCode_mono (a := 1) (c := (amount v - amount w).natAbs) Nat.one_pos Nat.one_pos
    (by omega)
  have least : nearestCode 1 1 = 1 := nearestCode_units 1
  have pos := infinityCode_pos
  rw [(sum_sub hv hw).code]
  omega

end Binary64

theorem IsLength.eq_zero_iff {s : Float} (h : IsLength s) : s = 0.0 ↔ code s = 0 := by
  constructor
  · rintro rfl
    decide
  · intro zero
    exact eq_of_code_eq (h.positive.trans (by decide)) (zero.trans (by decide))

theorem IsLength.pos {s : Float} (h : IsLength s) (ne : code s ≠ 0) : 0.0 < s := by
  have none : place 0.0 = 0 := by decide
  have here : place s = code s := by rw [place, h.positive]; rfl
  exact (lt_iff _ _).2 ⟨by decide, h.defined, by omega⟩

theorem IsLength.code_double_ne_zero {s : Float} (h : IsLength s) (ne : code s ≠ 0) :
    code (s * 2.0) ≠ 0 := by
  obtain ⟨pos, finite, -⟩ := two_spec
  have product := stands_mul h.defined (Nat.le_of_lt finite) (fun _ => pos)
    (fun e => absurd e (Nat.ne_of_lt finite))
  have rise := productCode_le_productCode (Nat.one_le_iff_ne_zero.2 ne) (Nat.le_refl (code 2.0))
    h.defined (Nat.le_of_lt finite)
  have least : productCode 1 (code 2.0) ≠ 0 := by decide +kernel
  rw [product.code]
  omega

/-- A point has no distance to itself. -/
theorem Point.code_distanceSquared_self {p : Point Float} (hp : p.IsFinite) :
    code (p.distanceSquared p) = 0 := by
  have level {v : Float} (hv : v.isFinite = true) : code ((v - v) * (v - v)) = 0 := by
    have none : code (v - v) = 0 := by
      rw [(sum_sub hv hv).code, Int.sub_self, Int.natAbs_zero, nearestCode_zero Nat.one_pos]
      exact Nat.min_zero _
    rw [(stands_square (by omega)).code, none]
    decide +kernel
  show code ((p.x - p.x) * (p.x - p.x) + (p.y - p.y) * (p.y - p.y)) = 0
  rw [code_zero_add (level hp.x) (by rw [level hp.y]; exact Nat.zero_le _), level hp.y]

/-! ## Where a step leads -/

/-- The place one step away in a direction, or the edge of the window if that is nearer. -/
def Window.reach (w : Window Float) : Direction → Float → Float → Float
  | .backward, x, s => if x - s < w.xStart then w.xStart else x - s
  | .forward, x, s => if w.xEnd < x + s then w.xEnd else x + s

namespace Tracer

variable {t : Tracer Float} {f : Float → Option Float} {d : Direction} {w : Walk Float}

theorem target_eq_reach (hs : IsLength w.step) :
    t.target d w = t.window.reach d w.previous.x w.step := by
  cases d with
  | backward =>
    have back : w.previous.x + Direction.backward.unit * w.step = w.previous.x - w.step := by
      rw [sub_eq_add, ← neg_one_mul_eq hs.defined]
      rfl
    simp only [target, Window.reach, back]
  | forward =>
    have ahead : w.previous.x + Direction.forward.unit * w.step = w.previous.x + w.step :=
      congrArg (w.previous.x + ·) (one_mul_eq hs.defined)
    simp only [target, Window.reach, ahead]

theorem target_eq_or (t : Tracer Float) (d : Direction) (w : Walk Float) :
    t.target d w = t.boundary d ∨ t.target d w = w.previous.x + d.unit * w.step := by
  unfold target
  cases d <;> simp only <;> split
  · exact .inl rfl
  · exact .inr rfl
  · exact .inl rfl
  · exact .inr rfl

/-- Without a step, a walk looks at its own place. -/
theorem place_target_eq (h : t.Valid) (hs : IsLength w.step) (zero : code w.step = 0)
    (inside : t.window.Spans w.previous.x) : place (t.target d w) = place w.previous.x := by
  have still := place_add_zero (h.finite inside) ((stands_unit_mul d hs).1.trans zero)
  obtain ⟨-, low, high⟩ := (spans_iff h).1 inside
  unfold target
  cases d with
  | backward =>
    simp only
    split
    · rename_i clipped
      rw [lt_iff] at clipped
      omega
    · exact still
  | forward =>
    simp only
    split
    · rename_i clipped
      rw [lt_iff] at clipped
      omega
    · exact still

/-- **With a step, a walk looks elsewhere**, unless at the very `x` where it stands. -/
theorem place_target_ne (hs : IsLength w.step) (moves : code w.step ≠ 0)
    (incomplete : w.isComplete t d = false) (other : t.target d w ≠ w.previous.x) :
    place (t.target d w) ≠ place w.previous.x := by
  intro same
  obtain ⟨none, zero⟩ : code (t.target d w) = 0 ∧ code w.previous.x = 0 :=
    (SameValue.of_place same).resolve_left other
  rcases target_eq_or t d w with edge | step
  · have reached : (w.previous.x == t.boundary d) = true := by
      rw [← edge, beq_iff]
      exact ⟨by omega, by omega, same.symm⟩
    rw [Walk.isComplete, reached, Bool.or_true] at incomplete
    cases incomplete
  · -- both are zeros, but from a zero a step leads as far as it is long
    obtain ⟨sameCode, -⟩ := stands_unit_mul d hs
    rw [step, code_zero_add zero (by rw [sameCode]; exact hs.defined), sameCode] at none
    exact moves none

/-! ## What a walk keeps -/

/-- Is there no sample at this place to which a walk can go on from `p`? -/
def Unfit (t : Tracer Float) (f : Float → Option Float) (p : Point Float) (v : Float) : Prop :=
  t.sample? f v = none ∨
    ∃ q, t.sample? f v = some q ∧ t.sampling.maxDistanceSquared < q.distanceSquared p

/-- Does a step underflow here? From a point of the curve at this `x`, it leads to an unfit place that
is so near that half the distance is nothing. -/
def Underflows (t : Tracer Float) (f : Float → Option Float) (x : Float) : Prop :=
  ∃ p v, t.Stored f p ∧ (p.x == x) = true ∧ t.window.Spans v ∧ t.Unfit f p v ∧
    0.0 < (v - p.x).abs ∧ (v - p.x).abs / 2.0 = 0.0

end Tracer

/-- What accepted settings with a finite window promise of a tracer. -/
structure Tracer.Accepted (t : Tracer Float) : Prop extends t.Valid where
  limit : 0.0 < t.window.yLimit
  first : 0.0 < t.sampling.smallIncrement
  gap : 0.0 < t.sampling.maxDistanceSquared

theorem Settings.accepted_of_validate {s : Settings} {t : Tracer Float} (h : s.validate = .ok ())
    (start : s.window.xStart.isFinite = true) (stop : s.window.xEnd.isFinite = true)
    (made : s.tracer = .ok t) : t.Accepted := by
  obtain ⟨-, limit, ⟨-, small⟩, ⟨least, most⟩, -⟩ :=
    fault?_eq_none_iff.1 (validate_eq_ok_iff.1 h)
  have valid := valid_of_validate h start stop made
  rw [eq_of_tracer made] at valid ⊢
  have gap : 0.0 < s.sampling.maxDistanceSquared := by
    rw [lt_iff] at *
    omega
  exact ⟨valid, limit, small, gap⟩

/-- **What a walk keeps of its room and its step.** The points it has stored and those for which it has
room are as many as a walk may store, and it is without a step only where one was lost by halving. -/
structure Walk.Steady (t : Tracer Float) (f : Float → Option Float) (d : Direction)
    (seed : Point Float) (w : Walk Float) : Prop extends w.Proper t f d seed where
  count : w.room + w.points.length = t.sampling.maxPoints
  moving : w.step = 0.0 → t.Underflows f w.previous.x

namespace Walk

variable {t : Tracer Float} {f : Float → Option Float} {d : Direction} {seed : Point Float}
  {w w' : Walk Float}

theorem steady_start (h : t.Accepted) (hseed : t.Stored f seed) :
    Steady t f d seed (.start t seed) where
  toProper := proper_start h.toValid hseed
  count := rfl
  moving := by
    intro (zero : t.sampling.smallIncrement = 0.0)
    have small := h.first
    rw [zero] at small
    exact absurd small (by decide)

/-- Where a walk has to shorten its step, it has not looked at its own point. -/
theorem target_ne_of_unfit (h : t.Accepted) (inv : Proper t f d seed w)
    (unfit : t.Unfit f w.previous (t.target d w)) : t.target d w ≠ w.previous.x := by
  intro same
  have sampled : t.sample? f w.previous.x = some w.previous := inv.previous.sampled
  rw [Tracer.Unfit, same, sampled] at unfit
  rcases unfit with none | ⟨q, sample, far⟩
  · cases none
  · obtain rfl := Option.some.inj sample
    have here := Point.code_distanceSquared_self (inv.previous.isFinite h.toValid)
    have gap := h.gap
    have zero : place 0.0 = 0 := by decide
    rw [← natAbs_place] at here
    rw [lt_iff] at gap far
    omega

/-- A walk loses its step by halving only. -/
theorem Steady.moving_shorten (h : t.Accepted) (inv : Steady t f d seed w)
    (incomplete : w.isComplete t d = false) (unfit : t.Unfit f w.previous (t.target d w))
    (lost : (w.shorten (t.target d w)).step = 0.0) : t.Underflows f w.previous.x := by
  by_cases zero : code w.step = 0
  · exact inv.moving (inv.step.eq_zero_iff.2 zero)
  · have inside := inv.previous.spans
    obtain ⟨within, -⟩ := Tracer.target_spec h.toValid inv.step inside incomplete
    have apart := Tracer.place_target_ne inv.step zero incomplete
      (target_ne_of_unfit h inv.toProper unfit)
    have here := h.finite inside
    have difference := sum_sub (h.finite within) here
    have width := stands_abs difference.defined
    have length : IsLength (t.target d w - w.previous.x).abs :=
      isLength_of_stands width difference.defined
    have defined := Nat.le_of_lt ((isFinite_iff _).1 here)
    refine ⟨w.previous, t.target d w, inv.previous, (beq_iff _ _).2 ⟨defined, defined, rfl⟩, within,
      unfit, length.pos ?_, lost⟩
    rw [width.code]
    exact code_sub_ne_zero (h.finite within) here apart

/-- A walk without a step moves on to its own place. -/
theorem Steady.moving_move (h : t.Valid) (inv : Steady t f d seed w)
    (incomplete : w.isComplete t d = false) {p : Point Float} (at_target : p.x = t.target d w)
    {distance : Float} (lost : (w.move t p distance).step = 0.0) : t.Underflows f p.x := by
  have zero : code w.step = 0 := by
    by_contra moves
    unfold Walk.move at lost
    simp only at lost
    split at lost
    · exact inv.step.code_double_ne_zero moves (inv.step.double.eq_zero_iff.1 lost)
    · exact moves (inv.step.eq_zero_iff.1 lost)
  have inside := inv.previous.spans
  obtain ⟨within, -⟩ := Tracer.target_spec h inv.step inside incomplete
  have same := Tracer.place_target_eq h (d := d) inv.step zero inside
  obtain ⟨q, v, stored, level, near⟩ := inv.moving (inv.step.eq_zero_iff.2 zero)
  have defined := Nat.le_of_lt ((isFinite_iff _).1 (h.finite within))
  rw [beq_iff] at level
  rw [at_target]
  exact ⟨q, v, stored, (beq_iff _ _).2 ⟨level.1, defined, level.2.2.trans same.symm⟩, near⟩

/-- **A step of a walk keeps it steady.** -/
theorem steady_of_advance? (h : t.Accepted) (inv : Steady t f d seed w)
    (step : w.advance? t f d = some w') : Steady t f d seed w' := by
  have kept := proper_of_advance? h.toValid inv.toProper step
  obtain ⟨incomplete, cases⟩ := Tracer.advance?_cases step
  rcases cases with ⟨none, -, rfl⟩ | ⟨p, sample, ⟨far, -, rfl⟩ | ⟨-, rfl⟩⟩
  · exact ⟨kept, inv.count, inv.moving_shorten h incomplete (.inl none)⟩
  · exact ⟨kept, inv.count, inv.moving_shorten h incomplete (.inr ⟨p, sample, far⟩)⟩
  · have at_target := Tracer.x_of_sample? sample
    refine ⟨kept, ?_, inv.moving_move h.toValid incomplete at_target⟩
    have room := Tracer.room_ne_zero incomplete
    have count := inv.count
    show w.room - 1 + (w.points.length + 1) = t.sampling.maxPoints
    omega

end Walk

/-! ## Where a walk is over -/

namespace Tracer

/-- Has the function no value here, or one that is not finite or lies beyond the limit? -/
def Undefined (t : Tracer Float) (f : Float → Option Float) (x : Float) : Prop :=
  f x = none ∨ ∃ y, f x = some y ∧ (y.isFinite = false ∨ t.window.yLimit < y.abs)

/-- May this be the step of a walk that has come to `x`? -/
def IsStep (t : Tracer Float) (f : Float → Option Float) (x s : Float) : Prop :=
  0.0 < s ∨ s = 0.0 ∧ t.Underflows f x

/-- **Why a walk is over** that has stored these points and come to `e`: it is at the edge of the
window, or has stored as many points as it may. Or it has looked one step on, which is no longer than
the first step, and the function is undefined there, or shorter than the least step, and the curve is
too far away there. -/
inductive Ends (t : Tracer Float) (f : Float → Option Float) (d : Direction)
    (ps : List (Point Float)) (e : Point Float) : Prop where
  | edge (reached : (e.x == t.boundary d) = true)
  | full (most : ps.length = t.sampling.maxPoints)
  | undefined (s : Float) (step : t.IsStep f e.x s) (short : s ≤ t.sampling.smallIncrement)
      (outside : t.Undefined f (t.window.reach d e.x s))
  | jump (s : Float) (step : t.IsStep f e.x s) (short : s < t.sampling.minStep) (q : Point Float)
      (sample : t.sample? f (t.window.reach d e.x s) = some q)
      (far : t.sampling.maxDistanceSquared < q.distanceSquared e)

variable {t : Tracer Float} {f : Float → Option Float}

theorem undefined_of_sample? (limit : 0.0 < t.window.yLimit) {x : Float}
    (none : t.sample? f x = none) : t.Undefined f x := by
  cases value : f x with
  | none => exact .inl value
  | some y =>
    refine .inr ⟨y, value, ?_⟩
    by_contra fine
    obtain ⟨finite, within⟩ := not_or.1 fine
    have finite : y.isFinite = true := by simpa using finite
    have defined := Nat.le_of_lt ((isFinite_iff y).1 finite)
    have abs : code y.abs ≤ infinityCode := by rwa [(stands_abs defined).code]
    obtain ⟨-, limited, -⟩ := (lt_iff _ _).1 limit
    have le : y.abs ≤ t.window.yLimit := (not_lt_iff_le limited abs).1 within
    have sampled : t.sample? f x = some ⟨x, y⟩ := sample?_eq_some_iff.2 ⟨rfl, value, finite, le⟩
    rw [none] at sampled
    cases sampled

/-- **A steady walk is over for a reason.** -/
theorem ends_of_stopped (h : t.Accepted) {d : Direction} {seed : Point Float} {w : Walk Float}
    (inv : w.Steady t f d seed) (stopped : w.advance? t f d = none) :
    t.Ends f d w.points w.previous := by
  have step : t.IsStep f w.previous.x w.step := by
    by_cases zero : code w.step = 0
    · have none := inv.step.eq_zero_iff.2 zero
      exact .inr ⟨none, inv.moving none⟩
    · exact .inl (inv.step.pos zero)
  rcases advance?_eq_none_cases stopped with complete | ⟨none, long⟩ | ⟨p, sample, far, short⟩
  · rcases Bool.or_eq_true_iff.1 complete with full | reached
    · have count := inv.count
      rw [beq_iff_eq.1 full, Nat.zero_add] at count
      exact .full count
    · exact .edge reached
  · rw [target_eq_reach inv.step] at none
    have short : w.step ≤ t.sampling.smallIncrement :=
      (not_lt_iff_le h.small.defined inv.step.defined).1 long
    exact .undefined w.step step short (undefined_of_sample? h.limit none)
  · rw [target_eq_reach inv.step] at sample
    exact .jump w.step step short p sample far

theorem ends_of_walk? (h : t.Accepted) {rounds : Nat} {d : Direction} {seed : Point Float}
    {ps : List (Point Float)} (hseed : t.Stored f seed) (walk : t.walk? f rounds d seed = some ps) :
    ∃ e, (ps ++ [seed]).head? = some e ∧ t.Ends f d ps e := by
  obtain ⟨w, inv, stopped, rfl⟩ := walk?_stopped walk (Walk.steady_start h hseed)
    fun w w' inv step => Walk.steady_of_advance? h inv step
  exact ⟨w.previous, inv.reached, ends_of_stopped h inv stopped⟩

end Tracer

/-! ## Both ends of a run -/

/-- The walks of a branch, the points to which they lead, and why they lead no farther. -/
structure Branch.EndsAt (t : Tracer Float) (f : Float → Option Float) (rounds : Nat)
    (b : Branch Float) (back ahead : List (Point Float)) (left right : Point Float) : Prop where
  walkBack : t.walk? f rounds .backward b.seed = some back
  walkAhead : t.walk? f rounds .forward b.seed = some ahead
  points : b.run.points.toList = back ++ b.seed :: ahead.reverse
  first : b.run.points.toList.head? = some left
  last : b.run.points.toList.getLast? = some right
  leftEnd : t.Ends f .backward back left
  rightEnd : t.Ends f .forward ahead right

namespace Tracer

variable {t : Tracer Float} {f : Float → Option Float}

theorem endsAt_of_branch? (h : t.Accepted) {rounds : Nat} {b : Branch Float}
    (hseed : t.Stored f b.seed) (branch : t.branch? f rounds b.seed = some b) :
    ∃ back ahead left right, b.EndsAt t f rounds back ahead left right := by
  obtain ⟨back, ahead, walkBack, walkAhead, made⟩ := branch?_eq_some_iff.1 branch
  obtain ⟨left, first, leftEnd⟩ := ends_of_walk? h hseed walkBack
  obtain ⟨right, last, rightEnd⟩ := ends_of_walk? h hseed walkAhead
  have chain := chain_of_walks h.toValid hseed walkBack walkAhead
  have points : b.run.points.toList = back ++ b.seed :: ahead.reverse := by
    rw [made]
    exact ofList_toList chain
  refine ⟨back, ahead, left, right, walkBack, walkAhead, points, ?_, ?_, leftEnd, rightEnd⟩
  · rw [points, ← first]
    cases back <;> rfl
  · have turned : (back ++ b.seed :: ahead.reverse).reverse = ahead ++ b.seed :: back.reverse := by
      simp
    rw [points, ← last, ← List.head?_reverse, turned]
    cases ahead <;> rfl

/-- **A run ends for a reason**, on either side, for every formula, all settings that are accepted and
a finite window: it has reached the edge of the window, its walk has stored as many points as it may,
the function is undefined no farther on than the first step, or it jumps within the least step. -/
theorem runs_end_for_a_reason {settings : Settings} {t : Tracer Float}
    (valid : settings.validate = .ok ()) (start : settings.window.xStart.isFinite = true)
    (stop : settings.window.xEnd.isFinite = true) (made : settings.tracer = .ok t)
    {e : Formula Float} {rounds : Nat} {branches : List (Branch Float)}
    (traced : t.traceFormula? e rounds = some branches) :
    ∀ b ∈ branches, ∃ back ahead left right,
      b.EndsAt t (fun x => e.eval? x) rounds back ahead left right := by
  unfold traceFormula? at traced
  split at traced
  · obtain rfl := Option.some.inj traced
    exact List.forall_mem_nil _
  · have accepted := Settings.accepted_of_validate valid start stop made
    intro b hb
    have found := found_of_scan? accepted.toValid (isCursor_start accepted.toValid) traced b hb
    exact endsAt_of_branch? accepted found.stored found.branch

/-- Two runs of `x / x`: one of a single point, whose walk ahead looks at the hole, and one that steps
over the hole from edge to edge of the window. -/
theorem runs_end_for_a_reason_wide :
    let f : Float → Option Float := fun x => (Formula.read "x/x").eval? x
    wideSettings.validate = .ok () ∧
      wideTracer.traceFormula? (Formula.read "x/x") stepLimit = some [shortBranch, longBranch] ∧
        (∃ back ahead, shortBranch.EndsAt wideTracer f stepLimit back ahead ⟨-1.0, 1.0⟩ ⟨-1.0, 1.0⟩) ∧
          ∃ back ahead, longBranch.EndsAt wideTracer f stepLimit back ahead ⟨-1.0, 1.0⟩ ⟨1.0, 1.0⟩ := by
  intro f
  have ends := runs_end_for_a_reason validate_wide (by decide +kernel) (by decide +kernel)
    (Settings.tracer_of_validate validate_wide) traceFormula?_wide
  obtain ⟨back, ahead, left, right, short⟩ := ends shortBranch (by simp)
  obtain ⟨back', ahead', left', right', long⟩ := ends longBranch (by simp)
  obtain rfl := Option.some.inj short.first
  obtain rfl := Option.some.inj short.last
  obtain rfl := Option.some.inj long.first
  obtain rfl := Option.some.inj long.last
  exact ⟨validate_wide, traceFormula?_wide, ⟨back, ahead, short⟩, back', ahead', long⟩

end Tracer

end CurvePuzzle
