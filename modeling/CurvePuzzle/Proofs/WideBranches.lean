import CurvePuzzle.Proofs.ExactArithmetic
import CurvePuzzle.Proofs.TraceEnds

/-!
# No wide branch is missed

Where a function has a value all over an interval that is wide enough, a trace stores a point in
that interval. The scan cannot step over it, for the coarse step is too short, and no walk can jump
over it, for neighbours may not be so far apart. As long as no point of the interval is stored,
everything stored lies below the interval, and so does the cursor.

* `Tracer.Unskippable`: what arithmetic must grant for that; it speaks of any number type.
* `Tracer.below_of_branch?`: a branch that begins below the interval stays there or stores a point
  in it.
* `Tracer.meets_of_scan?`: a scan whose cursor is not behind the interval stores a point in it.
* `Tracer.unskippable_exact`, `Tracer.unskippable_float`: exact arithmetic and rounded arithmetic
  grant what is needed.
* `Tracer.meets_of_trace`: no wide branch is missed.
-/

set_option autoImplicit false

namespace CurvePuzzle

namespace Tracer

section Generic

variable {α : Type} [Scalar α] [DecidableLT α] [DecidableLE α] {t : Tracer α} {f : α → Option α}
  {a b : α}

/-! ## Neighbours are near -/

/-- May a walk come from `q` to `p`? -/
def Near (t : Tracer α) (p q : Point α) : Prop :=
  ¬t.sampling.maxDistanceSquared < p.distanceSquared q

theorem near_of_walk? {rounds : Nat} {d : Direction} {seed : Point α} {ps : List (Point α)}
    (h : t.walk? f rounds d seed = some ps) : (ps ++ [seed]).IsChain t.Near := by
  let Linked (w : Walk α) : Prop :=
    (w.points ++ [seed]).head? = some w.previous ∧ (w.points ++ [seed]).IsChain t.Near
  have keep (w w' : Walk α) (linked : Linked w) (step : w.advance? t f d = some w') :
      Linked w' := by
    obtain ⟨reached, chain⟩ := linked
    obtain ⟨-, ⟨-, -, rfl⟩ | ⟨p, -, ⟨-, -, rfl⟩ | ⟨near, rfl⟩⟩⟩ := advance?_cases step
    · exact ⟨reached, chain⟩
    · exact ⟨reached, chain⟩
    · refine ⟨rfl, List.isChain_cons.2 ⟨?_, chain⟩⟩
      intro q hq
      obtain rfl := Option.some.inj (reached.symm.trans hq)
      exact near
  obtain ⟨w, ⟨-, chain⟩, rfl⟩ := walk?_induction h ⟨rfl, List.isChain_singleton seed⟩ keep
  exact chain

/-! ## Intervals that no trace skips -/

/-- What must be known of the numbers for a trace not to skip the interval from `a` to `b`, of the
places at which its cursor may be and of the points that it may store. -/
structure Unskippable (t : Tracer α) (f : α → Option α) (a b : α) (Place : α → Prop)
    (Good : Point α → Prop) : Prop where
  start : Place t.window.xStart
  /-- The window begins no later than the interval ends. -/
  entry : t.window.xStart ≤ b
  within : ∀ x, x ≤ b → x ≤ t.window.xEnd
  /-- The coarse step does not lead beyond the interval. -/
  resume : ∀ x, Place x → ¬a ≤ x →
    Place (x + t.sampling.largeIncrement) ∧ x + t.sampling.largeIncrement ≤ b
  stored : ∀ rounds c seed br, Place c → c ≤ b → t.sample? f c = some seed →
    t.branch? f rounds seed = some br → ∀ p ∈ br.run.points, Good p
  place : ∀ p, Good p → Place p.x
  /-- Points on the two sides of the interval are too far apart. -/
  far : ∀ p q, Good p → Good q → ¬a ≤ q.x → ¬p.x ≤ b →
    t.sampling.maxDistanceSquared < p.distanceSquared q

variable {Place : α → Prop} {Good : Point α → Prop}

/-- A walk that begins below the interval, and stores no point in it, stays below it. -/
theorem below_of_near (u : t.Unskippable f a b Place Good) {ps : List (Point α)} {seed : Point α}
    (chain : (ps ++ [seed]).IsChain t.Near) (good : ∀ p ∈ ps ++ [seed], Good p)
    (missed : ∀ p ∈ ps ++ [seed], ¬(a ≤ p.x ∧ p.x ≤ b)) (below : ¬a ≤ seed.x) :
    ∀ p ∈ ps ++ [seed], ¬a ≤ p.x := by
  induction ps with
  | nil =>
    intro p hp
    rw [List.mem_singleton.1 hp]
    exact below
  | cons p ps ih =>
    obtain ⟨goodP, good⟩ := List.forall_mem_cons.1 good
    obtain ⟨missedP, missed⟩ := List.forall_mem_cons.1 missed
    obtain ⟨near, chain⟩ := List.isChain_cons.1 chain
    have rest := ih chain good missed
    refine List.forall_mem_cons.2 ⟨?_, rest⟩
    intro reached
    obtain ⟨q, hq⟩ : ∃ q, (ps ++ [seed]).head? = some q := by
      cases ps with
      | nil => exact ⟨seed, rfl⟩
      | cons q ps => exact ⟨q, rfl⟩
    have member := List.mem_of_head? hq
    have beyond : ¬p.x ≤ b := fun le => missedP ⟨reached, le⟩
    exact near q hq (u.far p q goodP (good q member) (rest q member) beyond)

/-- **A branch that begins below the interval** lies below it, unless it has a point in it. -/
theorem below_of_branch? (u : t.Unskippable f a b Place Good) {rounds : Nat} {seed : Point α}
    {br : Branch α} (h : t.branch? f rounds seed = some br) (good : ∀ p ∈ br.run.points, Good p)
    (missed : ∀ p ∈ br.run.points, ¬(a ≤ p.x ∧ p.x ≤ b)) (below : ¬a ≤ seed.x) :
    ∀ p ∈ br.run.points, ¬a ≤ p.x := by
  obtain ⟨back, ahead, walkBack, walkAhead, rfl⟩ := branch?_eq_some_iff.1 h
  simp only [mem_ofList_points] at good missed ⊢
  have side {ps : List (Point α)} (chain : (ps ++ [seed]).IsChain t.Near)
      (part : ∀ p ∈ ps ++ [seed], p ∈ back ++ seed :: ahead.reverse) :
      ∀ p ∈ ps ++ [seed], ¬a ≤ p.x :=
    below_of_near u chain (fun p hp => good p (part p hp)) (fun p hp => missed p (part p hp)) below
  have belowBack := side (near_of_walk? walkBack) (by grind)
  have belowAhead := side (near_of_walk? walkAhead) (by grind)
  intro p hp
  rw [List.mem_append, List.mem_cons, List.mem_reverse] at hp
  rcases hp with hp | rfl | hp
  · exact belowBack p (List.mem_append_left _ hp)
  · exact below
  · exact belowAhead p (List.mem_append_left _ hp)

/-- Has one of the branches a point in the interval? -/
def Meets (bs : List (Branch α)) (a b : α) : Prop :=
  ∃ br ∈ bs, ∃ p ∈ br.run.points, a ≤ p.x ∧ p.x ≤ b

/-- **A scan does not skip the interval** as long as its cursor is not behind it. -/
theorem meets_of_scan? (u : t.Unskippable f a b Place Good)
    (defined : ∀ x, a ≤ x → x ≤ b → t.sample? f x ≠ none) {rounds n : Nat} {c : α}
    {bs : List (Branch α)} (place : Place c) (before : c ≤ b)
    (h : t.scan? f rounds n c = some bs) : Meets bs a b := by
  induction n generalizing c bs with
  | zero => cases h
  | succ n ih =>
    rcases scan?_succ_eq_some_iff.1 h with ⟨outside, -⟩ | ⟨-, none, scanned⟩ |
      ⟨-, seed, br, rest, sample, branch, scanned, rfl⟩
    · exact absurd (u.within c before) outside
    · have below : ¬a ≤ c := fun reached => defined c reached before none
      obtain ⟨place, before⟩ := u.resume c place below
      exact ih place before scanned
    · by_cases found : ∃ p ∈ br.run.points, a ≤ p.x ∧ p.x ≤ b
      · exact ⟨br, List.mem_cons_self, found⟩
      · -- the branch lies below the interval, so the scan goes on before its end
        have missed : ∀ p ∈ br.run.points, ¬(a ≤ p.x ∧ p.x ≤ b) :=
          fun p hp inside => found ⟨p, hp, inside⟩
        have good := u.stored rounds c seed br place before sample branch
        have member : seed ∈ br.run.points := seed_mem_of_branch? branch
        have below : ¬a ≤ seed.x := by
          have at_cursor : seed.x = c := x_of_sample? sample
          exact fun reached => missed seed member ⟨reached, at_cursor ▸ before⟩
        obtain ⟨q, hq, last⟩ := br.exists_lastX_eq member
        have ahead := u.resume q.x (u.place q (good q hq))
          (below_of_branch? u branch good missed below q hq)
        rw [last] at scanned
        obtain ⟨br', hbr', found⟩ := ih ahead.1 ahead.2 scanned
        exact ⟨br', List.mem_cons_of_mem _ hbr', found⟩

/-- Does the formula have a value within the window all over the interval? -/
def Sees [Transcendental α] (t : Tracer α) (e : Formula α) (a b : α) : Prop :=
  ∀ x, a ≤ x → x ≤ b → ∃ y, e.eval? x = some y ∧ Scalar.isFinite y = true ∧
    Scalar.abs y ≤ t.window.yLimit

theorem meets_of_traceFormula? [Transcendental α] {e : Formula α}
    (u : t.Unskippable (fun x => e.eval? x) a b Place Good) (order : a ≤ a ∧ a ≤ b)
    (seen : t.Sees e a b) {rounds : Nat} {bs : List (Branch α)}
    (h : t.traceFormula? e rounds = some bs) : Meets bs a b := by
  have valid : ¬e.isInvalid = true := by
    intro invalid
    obtain ⟨y, value, -⟩ := seen a order.1 order.2
    cases e <;> cases invalid
    rw [Formula.eval?] at value
    cases value
  rw [traceFormula?, if_neg valid, trace?] at h
  refine meets_of_scan? u ?_ u.start u.entry h
  intro x low high none
  obtain ⟨y, value, finite, limit⟩ := seen x low high
  have sample : t.sample? (fun x => e.eval? x) x = some ⟨x, y⟩ :=
    sample?_eq_some_iff.2 ⟨rfl, value, finite, limit⟩
  rw [none] at sample
  cases sample

end Generic

/-! ## Over exact arithmetic -/

section Exact

open scoped Exact

variable {K : Type} [Field K] [LinearOrder K] [IsStrictOrderedRing K]

theorem unskippable_exact {t : Tracer K} {f : K → Option K} {a b : K} (low : t.window.xStart ≤ a)
    (order : a ≤ b) (high : b ≤ t.window.xEnd) (wide : t.sampling.largeIncrement ≤ b - a)
    (far : t.sampling.maxDistanceSquared < (b - a) * (b - a)) :
    t.Unskippable f a b (fun _ => True) (fun _ => True) where
  start := trivial
  entry := le_trans low order
  within _ hx := le_trans hx high
  resume x _ below := by
    have left := not_le.1 below
    exact ⟨trivial, by linarith⟩
  stored _ _ _ _ _ _ _ _ _ _ := trivial
  place _ _ := trivial
  far p q _ _ below above := by
    have left := not_le.1 below
    have right := not_le.1 above
    rw [Exact.distanceSquared_eq]
    nlinarith [sq_nonneg (p.y - q.y)]

end Exact

/-! ## Over floats -/

section Rounded

open Binary64

variable {t : Tracer Float} {f : Float → Option Float} {a b : Float}

theorem not_le_iff (h : t.Valid) {x y : Float} (hx : t.window.Spans x) (hy : t.window.Spans y) :
    ¬x ≤ y ↔ place y < place x := by
  have definedX := ((spans_iff h).1 hx).1
  have definedY := ((spans_iff h).1 hy).1
  rw [le_iff]
  omega

/-- A finite step no longer than the exact width of an interval does not lead beyond it, since
rounding keeps the order. -/
theorem add_le_of_amount_le {s : Float} (ha : a.isFinite = true) (hb : b.isFinite = true)
    (hs : s.isFinite = true) (wide : amount s ≤ amount b - amount a) : a + s ≤ b := by
  have sum := sum_add ha hs
  have definedB := Nat.le_of_lt ((isFinite_iff b).1 hb)
  have rise := nearestPlace_mono (i := amount a + amount s) (j := amount b) (by omega)
  rw [nearestPlace_amount definedB, ← sum.place] at rise
  exact (le_iff _ _).2 ⟨sum.defined, definedB, rise⟩

/-- A finite window has no room for an infinite step. -/
theorem isFinite_of_add_le {x s y : Float} (hx : x.isFinite = true) (hy : y.isFinite = true)
    (hs : IsLength s) (h : x + s ≤ y) : s.isFinite = true := by
  rcases Nat.lt_or_eq_of_le hs.defined with finite | infinite
  · exact (isFinite_iff s).2 finite
  · have top := (stands_add_infinity hx infinite).place
    rw [hs.positive] at top
    have top : place (x + s) = infinityCode := top
    have below := ((le_iff _ _).1 h).2.2
    have finite := (isFinite_iff y).1 hy
    rw [← natAbs_place] at finite
    omega

/-- The points on the two sides of an interval are farther apart than its ends. -/
theorem lt_distanceSquared (h : t.Valid) (ha : t.window.Spans a) (hb : t.window.Spans b)
    (order : a ≤ b) {m : Float} (far : m < (b - a) * (b - a)) {p q : Point Float}
    (hp : t.Stored f p) (hq : t.Stored f q) (below : ¬a ≤ q.x) (above : ¬p.x ≤ b) :
    m < p.distanceSquared q := by
  have finiteP := hp.isFinite h
  have finiteQ := hq.isFinite h
  rw [not_le_iff h ha hq.spans] at below
  rw [not_le_iff h hp.spans hb] at above
  have wider := code_sub_le_code_sub (h.finite hb) (h.finite ha) finiteP.x finiteQ.x
    (Int.le_of_lt below) ((le_iff _ _).1 order).2.2 (Int.le_of_lt above)
  have width := sum_sub (h.finite hb) (h.finite ha)
  have distance := sum_sub finiteP.x finiteQ.x
  have height := isLength_square (sum_sub finiteP.y finiteQ.y).defined
  have larger : place ((b - a) * (b - a)) ≤ place ((p.x - q.x) * (p.x - q.x)) := by
    have rise := productCode_le_productCode wider wider distance.defined distance.defined
    rw [(stands_square width.defined).place, (stands_square distance.defined).place]
    exact Int.ofNat_le.2 rise
  have whole : place ((p.x - q.x) * (p.x - q.x)) ≤ place (p.distanceSquared q) :=
    (isLength_square distance.defined).place_le_add height
  obtain ⟨defined, -, less⟩ := (lt_iff _ _).1 far
  exact (lt_iff _ _).2 ⟨defined, Point.code_distanceSquared_le finiteP finiteQ, by omega⟩

theorem unskippable_float (h : t.Valid) (low : t.window.xStart ≤ a) (order : a ≤ b)
    (high : b ≤ t.window.xEnd) (wide : a + t.sampling.largeIncrement ≤ b)
    (far : t.sampling.maxDistanceSquared < (b - a) * (b - a)) :
    t.Unskippable f a b t.window.Spans (t.Stored f) := by
  have ha : t.window.Spans a := ⟨low, le_trans order high⟩
  have hb : t.window.Spans b := ⟨le_trans low order, high⟩
  exact {
    start := h.spans_start
    entry := hb.low
    within := fun x hx => le_trans hx high
    resume := by
      intro x hx below
      rw [not_le_iff h ha hx] at below
      have finite := isFinite_of_add_le (h.finite ha) (h.finite hb) h.large wide
      have sooner := place_add_le_place_add (h.finite hx) (h.finite ha) finite (Int.le_of_lt below)
      have before := ((le_iff _ _).1 wide).2.2
      obtain ⟨cursor, -⟩ := cursor_spec h hx
      have reached : x + t.sampling.largeIncrement ≤ b :=
        (le_iff _ _).2 ⟨cursor.defined, ((spans_iff h).1 hb).1, by omega⟩
      exact ⟨cursor.spans h (le_trans reached high), reached⟩
    stored := by
      intro rounds c seed br place before sample branch
      exact (chain_of_branch? h (stored_of_sample? place sample) branch).2.2.1
    place := fun p good => good.spans
    far := fun p q hp hq below above => lt_distanceSquared h ha hb order far hp hq below above }

end Rounded

/-! ## No wide branch is missed -/

open scoped Exact in
/-- **A trace misses no wide branch.** Let a formula have a value within the window all over the
interval from `a` to `b`, which is no shorter than the coarse step and whose squared width exceeds
the largest squared distance of neighbours. Then a trace stores a point in the interval: over exact
arithmetic, for every tracer; and over floats, for all settings that are accepted and a finite
window, where the coarse step must not lead from `a` beyond `b`, as it does not when the exact width
suffices (`add_le_of_amount_le`), and the squared width is rounded as the distances are. -/
theorem meets_of_trace :
    (∀ (K : Type) [Field K] [LinearOrder K] [IsStrictOrderedRing K] [Transcendental K]
        (t : Tracer K) (e : Formula K) (a b : K) (rounds : Nat) (bs : List (Branch K)),
      t.window.xStart ≤ a → a ≤ b → b ≤ t.window.xEnd →
        t.sampling.largeIncrement ≤ b - a →
          t.sampling.maxDistanceSquared < (b - a) * (b - a) →
            t.Sees e a b → t.traceFormula? e rounds = some bs → Meets bs a b) ∧
      ∀ (settings : Settings) (t : Tracer Float) (e : Formula Float) (a b : Float) (rounds : Nat)
        (bs : List (Branch Float)),
      settings.validate = .ok () → settings.window.xStart.isFinite = true →
        settings.window.xEnd.isFinite = true → settings.tracer = .ok t →
          settings.window.xStart ≤ a → a ≤ b → b ≤ settings.window.xEnd →
            a + settings.sampling.largeIncrement ≤ b →
              settings.sampling.maxDistanceSquared < (b - a) * (b - a) →
                t.Sees e a b → t.traceFormula? e rounds = some bs → Meets bs a b := by
  constructor
  · intro K _ _ _ _ t e a b rounds bs low order high wide far seen traced
    exact meets_of_traceFormula? (unskippable_exact low order high wide far) ⟨le_refl a, order⟩ seen
      traced
  · intro settings t e a b rounds bs valid start stop made low order high wide far seen traced
    have promised := Settings.valid_of_validate valid start stop made
    obtain rfl := Settings.eq_of_tracer made
    have itself : a ≤ a := by
      have := (Binary64.le_iff _ _).1 order
      exact (Binary64.le_iff _ _).2 ⟨this.1, this.1, Int.le_refl _⟩
    exact meets_of_traceFormula? (unskippable_float promised low order high wide far)
      ⟨itself, order⟩ seen traced

open scoped Exact in
/-- The line `y = 0` is met between -1 and 1 by the standard settings, and between 0 and 1 over the
rationals, where its branches are single points. -/
theorem meets_of_trace_zero :
    (∃ (_ : Transcendental ℚ) (t : Tracer ℚ) (bs : List (Branch ℚ)),
      t.traceFormula? (.const 0) 3 = some bs ∧ Meets bs 0 1) ∧
    ∃ (t : Tracer Float) (rounds : Nat) (bs : List (Branch Float)),
      Settings.standard.tracer = .ok t ∧ t.traceFormula? (.const 0.0) rounds = some bs ∧
        Meets bs (-1.0) 1.0 := by
  constructor
  · let functions : Transcendental ℚ := ⟨fun _ _ => none, fun _ _ => none⟩
    let t : Tracer ℚ := ⟨⟨0, 1, 1⟩, ⟨1, 1, 0, 1 / 2, 1, 0⟩⟩
    let f : ℚ → Option ℚ := fun x => (Formula.const 0).eval? x
    let point (x : ℚ) : Branch ℚ := ⟨⟨x, 0⟩, ⟨#[⟨x, 0⟩]⟩⟩
    have limit : Scalar.abs (0 : ℚ) ≤ 1 := by decide +kernel
    have sample (x : ℚ) : t.sample? f x = some ⟨x, 0⟩ :=
      sample?_eq_some_iff.2 ⟨rfl, rfl, rfl, limit⟩
    have branch (x : ℚ) : t.branch? f 3 ⟨x, 0⟩ = some (point x) := by
      refine branch?_eq_some_iff.2 ⟨[], [], rfl, rfl, ?_⟩
      rw [List.reverse_nil, List.nil_append, Run.ofList, List.mergeSort_singleton]
    have last : (point 0).lastX + t.sampling.largeIncrement = 1 := by decide +kernel
    have behind : t.scan? f 3 1 ((point 1).lastX + t.sampling.largeIncrement) = some [] := by
      rw [scan?, if_neg (by decide +kernel)]
    have traced : t.traceFormula? (.const 0) 3 = some [point 0, point 1] := by
      rw [traceFormula?, if_neg (by decide), trace?]
      show t.scan? f 3 3 0 = _
      rw [scan?, if_pos (by decide +kernel)]
      simp only [sample, branch]
      rw [last, scan?, if_pos (by decide +kernel)]
      simp only [sample, branch]
      rw [behind]
      rfl
    exact ⟨functions, t, _, traced, meets_of_trace.1 ℚ t (.const 0) 0 1 3 _ (by decide +kernel)
      (by decide +kernel) (by decide +kernel) (by decide +kernel) (by decide +kernel)
      (fun x _ _ => ⟨0, rfl, rfl, limit⟩) traced⟩
  · have valid := Settings.validate_standard
    have made := Settings.tracer_of_validate valid
    have promised := Settings.valid_of_validate valid (by decide +kernel) (by decide +kernel) made
    obtain ⟨rounds, bs, traced⟩ := exists_traceFormula? promised resolved_standard (.const 0.0)
    have wide : -1.0 + Settings.standard.sampling.largeIncrement ≤ 1.0 :=
      add_le_of_amount_le (by decide +kernel) (by decide +kernel) (by decide +kernel)
        (by decide +kernel)
    exact ⟨_, rounds, bs, made, traced, meets_of_trace.2 _ _ (.const 0.0) (-1.0) 1.0 rounds bs valid
      (by decide +kernel) (by decide +kernel) made (by decide +kernel) (by decide +kernel)
      (by decide +kernel) wide (by decide +kernel)
      (fun x _ _ => ⟨0.0, rfl, by decide +kernel, by decide +kernel⟩) traced⟩

end Tracer

end CurvePuzzle
