import CurvePuzzle.Formula.Reader
import CurvePuzzle.Proofs.FloatSpacing
import CurvePuzzle.Proofs.TracedRuns

/-!
# The order of runs

The scan finds the runs of a curve from left to right, and every run ends behind all runs found
before it. It need not begin there. What bounds a walk backwards is the left edge of the window, not
the end of another run, and a step that has grown may lead over a place where an earlier walk had to
stop. That is the only way in which runs overlap.

* `Tracer.exists_steps_over`: a run with points on both sides of a place steps over it.
* `Branch.Precedes`, `Tracer.pairwise_of_scan?`: how two runs of a trace lie to one another.
* `Tracer.runs_are_ordered`: the same of all formulas and settings.
* `Tracer.runs_may_overlap`: a formula whose second run begins where its first does.
-/

set_option autoImplicit false

namespace CurvePuzzle

open Binary64

/-! ## Stuck cursors -/

namespace Binary64

theorem eq_of_place_eq {v w : Float} (ne : place v ≠ 0) (h : place v = place w) : v = w := by
  have codes : code v = code w := by rw [← natAbs_place, h, natAbs_place]
  refine eq_of_code_eq ?_ codes
  unfold place at ne h
  cases hv : isNegative v <;> cases hw : isNegative w <;>
    simp only [hv, hw, if_true, Bool.false_eq_true, if_false] at ne h ⊢ <;> omega

/-- Zero is moved by every positive number. -/
theorem place_ne_zero_of_stuck {x s : Float} (hx : x.isFinite = true) (hs : 0.0 < s)
    (stuck : place (x + s) ≤ place x) : place x ≠ 0 := by
  intro zero
  have length := isLength_of_pos hs
  have positive : 0 < units (code s) := by
    have zero : place 0.0 = 0 := by decide
    have above := ((lt_iff _ _).1 hs).2.2
    rw [zero, place, length.positive] at above
    exact units_pos (Int.natCast_pos.1 above)
  have fine : spacing (code x) = 1 := by
    rw [← natAbs_place, zero]
    decide
  have moved := place_lt_place_add hx length.defined length.positive (by omega)
  omega

end Binary64

/-! ## Stepping over a place -/

/-- The smallest `x` of a branch. -/
def Branch.firstX {α : Type} (b : Branch α) : α := (b.run.points[0]?.map Point.x).getD b.seed.x

theorem Branch.exists_firstX_eq {α : Type} {b : Branch α} {p : Point α} (hp : p ∈ b.run.points) :
    ∃ q, b.run.points.toList.head? = some q ∧ b.firstX = q.x := by
  rw [List.head?_eq_getElem?, Array.getElem?_toList]
  cases first : b.run.points[0]? with
  | none =>
    have empty : b.run.points = #[] := Array.eq_empty_of_size_eq_zero (by simpa using first)
    rw [empty] at hp
    exact absurd hp (Array.not_mem_empty p)
  | some q => exact ⟨q, rfl, by rw [firstX, first]; rfl⟩

/-- Two points of a curve on both sides of a place, as near as a tracer wants neighbours. The left one
may lie at the place itself. -/
structure Tracer.Straddles (t : Tracer Float) (f : Float → Option Float) (a : Float)
    (p q : Point Float) : Prop where
  left : t.Sampled f p
  right : t.Sampled f q
  low : p.x ≤ a
  high : a < q.x
  near : p.distanceSquared q ≤ t.sampling.maxDistanceSquared

/-- Are there neighbours in the run on both sides of a place? -/
def Run.StepsOver (t : Tracer Float) (f : Float → Option Float) (r : Run Float) (a : Float) : Prop :=
  ∃ p q, [p, q] <:+: r.points.toList ∧ t.Straddles f a p q

namespace Tracer

variable {t : Tracer Float} {f : Float → Option Float}

/-- In a row of neighbours that ends behind a place, either all points lie behind it or two
neighbours lie on both sides of it. -/
theorem exists_crossing {ps : List (Point Float)} (chain : ps.IsChain t.Joins) {a : Int}
    (last : ∃ q ∈ ps, a < place q.x) :
    (∀ p ∈ ps.head?, a < place p.x) ∨
      ∃ p q, [p, q] <:+: ps ∧ place p.x ≤ a ∧ a < place q.x ∧ t.Joins p q := by
  induction chain with
  | nil => exact .inl fun p hp => nomatch hp
  | singleton p =>
    obtain ⟨q, hq, behind⟩ := last
    rw [List.mem_singleton.1 hq] at behind
    exact .inl fun p hp => Option.some.inj hp ▸ behind
  | @cons_cons p q ps joins _ ih =>
    by_cases before : a < place p.x
    · exact .inl fun m hm => Option.some.inj hm ▸ before
    · have left : place p.x ≤ a := Int.not_lt.1 before
      obtain ⟨m, hm, behind⟩ := last
      have inner : ∃ m ∈ q :: ps, a < place m.x := by
        rcases List.mem_cons.1 hm with rfl | hm
        · exact absurd behind before
        · exact ⟨m, hm, behind⟩
      rcases ih inner with right | ⟨p', q', adjacent, crossing⟩
      · exact .inr ⟨p, q, ⟨[], ps, rfl⟩, left, right q rfl, joins⟩
      · exact .inr ⟨p', q', List.infix_cons adjacent, crossing⟩

variable {rounds : Nat} {seed : Point Float} {b : Branch Float}

/-- A branch that ends behind a place begins behind it or steps over it. -/
theorem exists_steps_over (valid : t.Valid) (hseed : t.Stored f seed)
    (h : t.branch? f rounds seed = some b) {a : Float} (defined : code a ≤ infinityCode)
    (behind : place a < place b.lastX) : b.run.StepsOver t f a ∨ a < b.firstX := by
  obtain ⟨-, member, stored, chain⟩ := chain_of_branch? valid hseed h
  have onCurve (p : Point Float) (hp : p ∈ b.run.points.toList) :
      t.Sampled f p ∧ code p.x ≤ infinityCode := by
    obtain ⟨spans, sampled⟩ := stored p (Array.mem_toList_iff.1 hp)
    exact ⟨sampled, ((spans_iff valid).1 spans).1⟩
  obtain ⟨last, hlast, at_last⟩ := Branch.exists_lastX_eq member
  obtain ⟨first, hfirst, at_first⟩ := Branch.exists_firstX_eq member
  rw [at_last] at behind
  rcases exists_crossing chain ⟨last, Array.mem_toList_iff.2 hlast, behind⟩ with apart | crossing
  · rw [at_first]
    obtain ⟨-, defined'⟩ := onCurve first (List.mem_of_head? hfirst)
    exact .inr ((lt_iff _ _).2 ⟨defined, defined', apart first hfirst⟩)
  · obtain ⟨p, q, adjacent, low, high, joins⟩ := crossing
    obtain ⟨left, definedP⟩ := onCurve p (adjacent.subset List.mem_cons_self)
    obtain ⟨right, definedQ⟩ :=
      onCurve q (adjacent.subset (List.mem_cons_of_mem _ List.mem_cons_self))
    exact .inl ⟨p, q, adjacent, left, right, (le_iff _ _).2 ⟨definedP, defined, low⟩,
      (lt_iff _ _).2 ⟨defined, definedQ, high⟩, joins.near⟩

end Tracer

/-! ## Earlier and later runs -/

/-- How an earlier branch of a trace lies to a later one: the later one is found behind its end or
there, ends behind it, and begins behind it unless it steps over it. -/
structure Branch.Precedes (t : Tracer Float) (f : Float → Option Float) (b b' : Branch Float) :
    Prop where
  found : b.lastX ≤ b'.seed.x
  ends : b.lastX < b'.lastX
  apart : b'.run.StepsOver t f b.lastX ∨ b.lastX < b'.firstX

namespace Tracer

variable {t : Tracer Float} {f : Float → Option Float} {rounds : Nat}

/-- **A branch precedes all that are found behind it.** -/
theorem precedes_of_found (valid : t.Valid) (large : 0.0 < t.sampling.largeIncrement) {n : Nat}
    {c : Float} {b : Branch Float} (hb : t.Found f rounds c b) {bs : List (Branch Float)}
    (h : t.scan? f rounds n (b.lastX + t.sampling.largeIncrement) = some bs) :
    ∀ b' ∈ bs, b.Precedes t f b' := by
  intro b' hb'
  obtain ⟨spans, -⟩ := hb.spec valid
  obtain ⟨cursor, rise⟩ := cursor_spec valid spans
  have found := found_of_scan? valid cursor h b' hb'
  obtain ⟨spans', before⟩ := found.spec valid
  obtain ⟨defined, -, -⟩ := (spans_iff valid).1 spans
  obtain ⟨defined', -, -⟩ := (spans_iff valid).1 spans'
  obtain ⟨definedSeed, -, -⟩ := (spans_iff valid).1 found.stored.spans
  have ends : place b.lastX < place b'.lastX := by
    by_contra level
    -- the increment is lost in rounding, and the scan is to be resumed where it has begun
    have stuck : place b.lastX ≠ 0 :=
      place_ne_zero_of_stuck (valid.finite spans) large (by omega)
    have same : b.lastX = b'.lastX := eq_of_place_eq stuck (by omega)
    exact resume_ne_of_scan? h hb' (by rw [same])
  exact ⟨(le_iff _ _).2 ⟨defined, definedSeed, rise.trans found.behind⟩,
    (lt_iff _ _).2 ⟨defined, defined', ends⟩,
    exists_steps_over valid found.stored found.branch defined ends⟩

theorem pairwise_of_scan? (valid : t.Valid) (large : 0.0 < t.sampling.largeIncrement) {n : Nat}
    {c : Float} {bs : List (Branch Float)} (hc : t.IsCursor c)
    (h : t.scan? f rounds n c = some bs) : bs.Pairwise (Branch.Precedes t f) := by
  refine scan?_pairwise h ?_
  intro b hb m rest scanned
  exact precedes_of_found valid large (found_of_scan? valid hc h b hb) scanned

/-- **The runs of a trace are ordered** by where they end, and a run is found where the runs before it
have ended or behind. It begins behind their ends as well, unless neighbours of its own, which are as
near as neighbours are, lie on both sides of such an end. -/
theorem runs_are_ordered {settings : Settings} {t : Tracer Float}
    (valid : settings.validate = .ok ()) (start : settings.window.xStart.isFinite = true)
    (stop : settings.window.xEnd.isFinite = true) (made : settings.tracer = .ok t)
    {e : Formula Float} {rounds : Nat} {branches : List (Branch Float)}
    (traced : t.traceFormula? e rounds = some branches) :
    branches.Pairwise (Branch.Precedes t fun x => e.eval? x) := by
  unfold traceFormula? at traced
  split at traced
  · obtain rfl := Option.some.inj traced
    exact .nil
  · have valid' := Settings.valid_of_validate valid start stop made
    obtain ⟨-, -, ⟨large, -⟩, -⟩ :=
      Settings.fault?_eq_none_iff.1 (Settings.validate_eq_ok_iff.1 valid)
    rw [← (Settings.eq_of_tracer made ▸ rfl : t.sampling = settings.sampling)] at large
    exact pairwise_of_scan? valid' large (isCursor_start valid') traced

/-! ## A line with a hole -/

/-- Steps that lead over a hole in the middle of the window. -/
def wideSettings : Settings :=
  { Settings.standard with
    window := ⟨-1.0, 1.0, 10.0⟩
    sampling := { Sampling.standard with
      largeIncrement := 0.5, smallIncrement := 1.0, maxDistanceSquared := 4.0 } }

def wideTracer : Tracer Float := ⟨wideSettings.window, wideSettings.sampling⟩

/-- The first run of `x / x`: its walk looks at the hole, and is over. -/
def shortBranch : Branch Float := ⟨⟨-1.0, 1.0⟩, ⟨#[⟨-1.0, 1.0⟩]⟩⟩

/-- The second run, whose walks do not look there. -/
def longBranch : Branch Float :=
  ⟨⟨-0.5, 1.0⟩, ⟨#[⟨-1.0, 1.0⟩, ⟨-0.5, 1.0⟩, ⟨0.5, 1.0⟩, ⟨1.0, 1.0⟩]⟩⟩

theorem validate_wide : wideSettings.validate = .ok () :=
  Settings.validate_of_isNone (by decide)

theorem traceFormula?_wide :
    wideTracer.traceFormula? (Formula.read "x/x") stepLimit = some [shortBranch, longBranch] := by
  let f : Float → Option Float := fun x => (Formula.read "x/x").eval? x
  have short : wideTracer.branch? f stepLimit shortBranch.seed = some shortBranch := by
    refine branch?_eq_some_iff.2 ⟨[], [], by decide +kernel, by decide +kernel, ?_⟩
    rw [Run.ofList, List.mergeSort_of_pairwise (by decide +kernel)]
    rfl
  have long : wideTracer.branch? f stepLimit longBranch.seed = some longBranch := by
    refine branch?_eq_some_iff.2
      ⟨[⟨-1.0, 1.0⟩], [⟨1.0, 1.0⟩, ⟨0.5, 1.0⟩], by decide +kernel, by decide +kernel, ?_⟩
    rw [Run.ofList, List.mergeSort_of_pairwise (by decide +kernel)]
    rfl
  have scanned : wideTracer.scan? f stepLimit 3 wideTracer.window.xStart =
      some [shortBranch, longBranch] := by
    refine scan?_succ_eq_some_iff.2 (.inr (.inr ⟨by decide +kernel, shortBranch.seed, shortBranch,
      [longBranch], by decide +kernel, short, ?_, rfl⟩))
    refine scan?_succ_eq_some_iff.2 (.inr (.inr ⟨by decide +kernel, longBranch.seed, longBranch,
      [], by decide +kernel, long, ?_, rfl⟩))
    exact scan?_succ_eq_some_iff.2 (.inl ⟨by decide +kernel, rfl⟩)
  rw [traceFormula?, if_neg (by decide +kernel)]
  exact scan?_mono scanned (by decide) (Nat.le_refl _)

/-- The second run ends behind the first one, and steps over its end. -/
theorem runs_are_ordered_wide :
    wideTracer.traceFormula? (Formula.read "x/x") stepLimit = some [shortBranch, longBranch] ∧
      shortBranch.Precedes wideTracer (fun x => (Formula.read "x/x").eval? x) longBranch := by
  have pairs := runs_are_ordered validate_wide (by decide +kernel) (by decide +kernel)
    (Settings.tracer_of_validate validate_wide) traceFormula?_wide
  exact ⟨traceFormula?_wide, List.pairwise_pair.1 pairs⟩

/-- **Runs may overlap**: the second run of `x / x` begins where the first one has ended. -/
theorem runs_may_overlap :
    ∃ (settings : Settings) (t : Tracer Float) (e : Formula Float) (b b' : Branch Float),
      settings.validate = .ok () ∧ settings.window.xStart.isFinite = true ∧
        settings.window.xEnd.isFinite = true ∧ settings.tracer = .ok t ∧
          t.traceFormula? e stepLimit = some [b, b'] ∧ ¬b.lastX < b'.firstX :=
  ⟨wideSettings, wideTracer, Formula.read "x/x", shortBranch, longBranch, validate_wide,
    by decide +kernel, by decide +kernel, Settings.tracer_of_validate validate_wide,
    traceFormula?_wide, by decide +kernel⟩

end Tracer

end CurvePuzzle
