import Mathlib.Data.List.Chain
import CurvePuzzle.Proofs.FloatArithmetic
import CurvePuzzle.Proofs.Tracing
import CurvePuzzle.Settings.Basic

/-!
# What traced runs are like

A run is glued from a walk backwards, a seed and a walk forwards, and sorted. With valid settings
and a finite window it comes out as it went in: the points are in order already, neighbours are
near, and all of them lie on the curve within the window.

* `IsLength`: steps and squared distances, which are defined and have no minus sign.
* `Settings.fault?_eq_none_iff`, `Tracer.Valid`: what settings that are accepted promise.
* `Settings.tracer_of_validate`: they give a tracer.
* `Tracer.target_spec`: where a walk looks next.
* `Walk.Proper`, `Walk.proper_of_advance?`: the invariant of a walk, and its step.
* `Tracer.IsCursor`, `Tracer.found_of_scan?`: what the coarse scan finds, and where.
* `Tracer.sound_of_trace`: the runs of a traced formula are sound.
-/

set_option autoImplicit false

namespace CurvePuzzle

open Binary64

/-! ## Lengths -/

/-- Is this a length: zero, positive or infinite, and without a minus sign? -/
structure IsLength (s : Float) : Prop where
  defined : code s ≤ infinityCode
  positive : isNegative s = false

theorem isLength_of_stands {s : Float} {n : Nat} (h : Stands s .positive n)
    (hn : n ≤ infinityCode) : IsLength s :=
  ⟨h.code ▸ hn, signOf_inj h.sign⟩

theorem isLength_of_pos {s : Float} (h : 0.0 < s) : IsLength s := by
  obtain ⟨-, defined, above⟩ := (lt_iff _ _).1 h
  have zero : place 0.0 = 0 := by decide
  refine ⟨defined, ?_⟩
  cases sign : isNegative s with
  | false => rfl
  | true =>
    rw [zero, place, sign] at above
    simp only [if_true] at above
    omega

theorem two_spec : 0 < code 2.0 ∧ code 2.0 < infinityCode ∧ isNegative 2.0 = false := by
  decide

theorem IsLength.double {s : Float} (h : IsLength s) : IsLength (s * 2.0) := by
  obtain ⟨pos, finite, positive⟩ := two_spec
  have product := Binary64.stands_mul h.defined (Nat.le_of_lt finite) (fun _ => pos)
    (fun e => absurd e (Nat.ne_of_lt finite))
  rw [h.positive, positive] at product
  exact isLength_of_stands product (productCode_le _ _)

theorem isLength_half {v w : Float} (hv : v.isFinite = true) (hw : w.isFinite = true) :
    IsLength ((v - w).abs / 2.0) := by
  obtain ⟨pos, finite, positive⟩ := two_spec
  have width := stands_abs (sum_sub hv hw).defined
  have defined : code (v - w).abs ≤ infinityCode := by
    rw [width.code]
    exact (sum_sub hv hw).defined
  have half := stands_div defined pos finite
  rw [width.sign, positive] at half
  exact isLength_of_stands half (quotientCode_le _ _)

theorem isLength_square {v : Float} (hv : code v ≤ infinityCode) : IsLength (v * v) :=
  isLength_of_stands (stands_square hv) (productCode_le _ _)

/-- Adding a length to a length leads upwards. -/
theorem IsLength.place_le_add {v w : Float} (hv : IsLength v) (hw : IsLength w) :
    place v ≤ place (v + w) := by
  rcases Nat.lt_or_eq_of_le hv.defined with finite | infinite
  · exact place_le_of_orderKey_le
      (orderKey_le_orderKey_add ((isFinite_iff v).2 finite) hw.defined hw.positive).2
  · have sum := stands_infinity_add infinite hw.defined (hw.positive.trans hv.positive.symm)
    rw [sum.place, place_eq, infinite]

theorem square_sub_comm {v w : Float} (hv : v.isFinite = true) (hw : w.isFinite = true) :
    (v - w) * (v - w) = (w - v) * (w - v) := by
  have left := stands_square (sum_sub hv hw).defined
  have right := stands_square (sum_sub hw hv).defined
  apply eq_of_code_eq
  · exact signOf_inj (left.sign.trans right.sign.symm)
  · rw [left.code, right.code, code_sub_comm hv hw]

/-! ## Distances -/

/-- Are both coordinates finite? -/
structure Point.IsFinite (p : Point Float) : Prop where
  x : p.x.isFinite = true
  y : p.y.isFinite = true

namespace Point

variable {p q : Point Float}

theorem distanceSquared_comm (hp : p.IsFinite) (hq : q.IsFinite) :
    p.distanceSquared q = q.distanceSquared p := by
  show (p.x - q.x) * (p.x - q.x) + (p.y - q.y) * (p.y - q.y) =
    (q.x - p.x) * (q.x - p.x) + (q.y - p.y) * (q.y - p.y)
  rw [square_sub_comm hp.x hq.x, square_sub_comm hp.y hq.y]

/-- The squared distance of finite points may overflow, but it is a number. -/
theorem code_distanceSquared_le (hp : p.IsFinite) (hq : q.IsFinite) :
    code (p.distanceSquared q) ≤ infinityCode := by
  have width := isLength_square (sum_sub hp.x hq.x).defined
  have height := isLength_square (sum_sub hp.y hq.y).defined
  exact code_add_le width.defined height.defined width.positive height.positive

end Point

/-! ## Where a walk looks next -/

/-- Does `x` lie in the window? -/
structure Window.Spans (w : Window Float) (x : Float) : Prop where
  low : w.xStart ≤ x
  high : x ≤ w.xEnd

/-- What valid settings with a finite window promise of a tracer. -/
structure Tracer.Valid (t : Tracer Float) : Prop where
  start : t.window.xStart.isFinite = true
  stop : t.window.xEnd.isFinite = true
  order : t.window.xStart < t.window.xEnd
  large : IsLength t.sampling.largeIncrement
  small : IsLength t.sampling.smallIncrement
  distance : code t.sampling.maxDistanceSquared ≤ infinityCode

theorem Settings.validate_eq_ok_iff {s : Settings} : s.validate = .ok () ↔ s.fault? = none := by
  unfold validate
  cases s.fault? <;> simp

theorem Settings.validate_of_isNone {s : Settings} (h : s.fault?.isNone = true) :
    s.validate = .ok () :=
  validate_eq_ok_iff.2 (Option.isNone_iff_eq_none.1 h)

theorem Settings.validate_standard : standard.validate = .ok () :=
  validate_of_isNone (by decide)

/-- What faultless settings satisfy. -/
theorem Settings.fault?_eq_none_iff {s : Settings} :
    s.fault? = none ↔
      s.window.xStart < s.window.xEnd ∧ 0.0 < s.window.yLimit ∧
        (0.0 < s.sampling.largeIncrement ∧ 0.0 < s.sampling.smallIncrement) ∧
        (0.0 < s.sampling.minDistanceSquared ∧
          s.sampling.minDistanceSquared < s.sampling.maxDistanceSquared) ∧
        s.area.xMin < s.area.xMax ∧ s.area.yMin < s.area.yMax := by
  have guard (c : Bool) (e : SettingsError) (rest : Option SettingsError) :
      (if !c then some e else rest) = none ↔ c = true ∧ rest = none := by
    cases c <;> simp
  simp only [fault?, guard, Bool.and_eq_true, decide_eq_true_eq, and_true]

theorem Settings.eq_of_tracer {s : Settings} {t : Tracer Float} (made : s.tracer = .ok t) :
    t = ⟨s.window, s.sampling⟩ := by
  unfold tracer Tracer.make? at made
  split at made
  · cases made
  · split at made
    · cases made
    · exact (Except.ok.inj made).symm

/-- **Accepted settings give a tracer.** -/
theorem Settings.tracer_of_validate {s : Settings} (h : s.validate = .ok ()) :
    s.tracer = .ok ⟨s.window, s.sampling⟩ := by
  obtain ⟨order, -, ⟨large, small⟩, -⟩ := fault?_eq_none_iff.1 (validate_eq_ok_iff.1 h)
  have zero : (0 : Float) = 0.0 := by decide
  simp [tracer, Tracer.make?, zero, order, large, small]

theorem Settings.valid_of_validate {s : Settings} {t : Tracer Float} (h : s.validate = .ok ())
    (start : s.window.xStart.isFinite = true) (stop : s.window.xEnd.isFinite = true)
    (made : s.tracer = .ok t) : t.Valid := by
  obtain ⟨order, -, ⟨large, small⟩, ⟨-, band⟩, -⟩ := fault?_eq_none_iff.1 (validate_eq_ok_iff.1 h)
  rw [eq_of_tracer made]
  exact ⟨start, stop, order, isLength_of_pos large, isLength_of_pos small,
    ((lt_iff _ _).1 band).2.1⟩

/-- Does the direction lead from one place to another, or leave it? -/
def Direction.Leads (d : Direction) (v w : Float) : Prop :=
  match d with
  | .backward => orderKey w ≤ orderKey v
  | .forward => orderKey v ≤ orderKey w

namespace Tracer

variable {t : Tracer Float}

theorem Valid.finite (h : t.Valid) {x : Float} (hx : t.window.Spans x) : x.isFinite = true := by
  obtain ⟨-, defined, low⟩ := (le_iff _ _).1 hx.low
  obtain ⟨-, -, high⟩ := (le_iff _ _).1 hx.high
  have start := (isFinite_iff _).1 h.start
  have stop := (isFinite_iff _).1 h.stop
  rw [← natAbs_place] at start stop
  rw [isFinite_iff, ← natAbs_place]
  omega

theorem spans_iff (h : t.Valid) {x : Float} :
    t.window.Spans x ↔
      code x ≤ infinityCode ∧ place t.window.xStart ≤ place x ∧ place x ≤ place t.window.xEnd := by
  have start := Nat.le_of_lt ((isFinite_iff _).1 h.start)
  have stop := Nat.le_of_lt ((isFinite_iff _).1 h.stop)
  constructor
  · intro hx
    obtain ⟨-, defined, low⟩ := (le_iff _ _).1 hx.low
    obtain ⟨-, -, high⟩ := (le_iff _ _).1 hx.high
    exact ⟨defined, low, high⟩
  · rintro ⟨defined, low, high⟩
    exact ⟨(le_iff _ _).2 ⟨start, defined, low⟩, (le_iff _ _).2 ⟨defined, stop, high⟩⟩

theorem Valid.spans_start (h : t.Valid) : t.window.Spans t.window.xStart := by
  obtain ⟨start, stop, low⟩ := (lt_iff _ _).1 h.order
  exact (spans_iff h).2 ⟨start, Int.le_refl _, Int.le_of_lt low⟩

theorem Valid.spans_stop (h : t.Valid) : t.window.Spans t.window.xEnd := by
  obtain ⟨start, stop, low⟩ := (lt_iff _ _).1 h.order
  exact (spans_iff h).2 ⟨stop, Int.le_of_lt low, Int.le_refl _⟩

/-- A walk moves in its direction by a step, before the edge of the window is looked at. -/
theorem leads_step {d : Direction} {x s : Float} (hx : x.isFinite = true) (hs : IsLength s) :
    code (x + d.unit * s) ≤ infinityCode ∧ d.Leads x (x + d.unit * s) := by
  cases d with
  | forward =>
    show code (x + 1.0 * s) ≤ infinityCode ∧ orderKey x ≤ orderKey (x + 1.0 * s)
    rw [one_mul_eq hs.defined]
    exact orderKey_le_orderKey_add hx hs.defined hs.positive
  | backward =>
    show code (x + -1.0 * s) ≤ infinityCode ∧ orderKey (x + -1.0 * s) ≤ orderKey x
    have back := stands_neg hs.defined
    rw [hs.positive] at back
    rw [neg_one_mul_eq hs.defined]
    exact orderKey_add_le_orderKey hx (by rw [back.code]; exact hs.defined) (signOf_inj back.sign)

/-- **Where an open walk looks next** lies in the window, and in the direction of the walk. -/
theorem target_spec (h : t.Valid) {d : Direction} {w : Walk Float} (hs : IsLength w.step)
    (inside : t.window.Spans w.previous.x) (incomplete : w.isComplete t d = false) :
    t.window.Spans (t.target d w) ∧ d.Leads w.previous.x (t.target d w) := by
  obtain ⟨defined, leads⟩ := leads_step (d := d) (h.finite inside) hs
  obtain ⟨definedP, low, high⟩ := (spans_iff h).1 inside
  obtain ⟨definedS, lowS, highS⟩ := (spans_iff h).1 h.spans_start
  obtain ⟨definedE, lowE, highE⟩ := (spans_iff h).1 h.spans_stop
  have away : (w.previous.x == t.boundary d) = false := (Bool.or_eq_false_iff.1 incomplete).2
  unfold target
  cases d with
  | backward =>
    simp only
    split
    · refine ⟨h.spans_start, orderKey_le low ?_⟩
      intro _ same
      have reached := (beq_iff w.previous.x t.window.xStart).2 ⟨definedP, definedS, same.symm⟩
      rw [boundary] at away
      rw [away] at reached
      cases reached
    · rename_i within
      have below := place_le_of_orderKey_le leads
      rw [lt_iff] at within
      exact ⟨(spans_iff h).2 ⟨defined, by omega, by omega⟩, leads⟩
  | forward =>
    simp only
    split
    · refine ⟨h.spans_stop, orderKey_le high ?_⟩
      intro _ same
      have reached := (beq_iff w.previous.x t.window.xEnd).2 ⟨definedP, definedE, same⟩
      rw [boundary] at away
      rw [away] at reached
      cases reached
    · rename_i within
      have above := place_le_of_orderKey_le leads
      rw [lt_iff] at within
      exact ⟨(spans_iff h).2 ⟨defined, by omega, by omega⟩, leads⟩

end Tracer

/-! ## Walks -/

namespace Tracer

/-- What a tracer stores: a sample in the window. -/
structure Stored (t : Tracer Float) (f : Float → Option Float) (p : Point Float) : Prop where
  spans : t.window.Spans p.x
  sampled : t.Sampled f p

/-- May the points be neighbours in a run, in this order? -/
structure Joins (t : Tracer Float) (p q : Point Float) : Prop where
  order : orderKey p.x ≤ orderKey q.x
  near : p.distanceSquared q ≤ t.sampling.maxDistanceSquared

/-- May a walk in this direction come from `q` to `p`? -/
def Linked (t : Tracer Float) (d : Direction) (p q : Point Float) : Prop :=
  match d with
  | .backward => t.Joins p q
  | .forward => t.Joins q p

variable {t : Tracer Float} {f : Float → Option Float}

theorem stored_of_sample? {x : Float} {p : Point Float} (hx : t.window.Spans x)
    (sample : t.sample? f x = some p) : t.Stored f p :=
  ⟨x_of_sample? sample ▸ hx, sampled_of_sample? sample⟩

theorem Stored.isFinite {p : Point Float} (h : t.Valid) (stored : t.Stored f p) : p.IsFinite :=
  ⟨h.finite stored.spans, (sample?_eq_some_iff.1 stored.sampled).2.2.1⟩

theorem linked_of_near {d : Direction} {p q : Point Float} (h : t.Valid) (hp : t.Stored f p)
    (hq : t.Stored f q) (leads : d.Leads q.x p.x)
    (near : ¬t.sampling.maxDistanceSquared < p.distanceSquared q) : t.Linked d p q := by
  have finiteP := hp.isFinite h
  have finiteQ := hq.isFinite h
  have defined := Point.code_distanceSquared_le finiteP finiteQ
  have bound : p.distanceSquared q ≤ t.sampling.maxDistanceSquared := by
    rw [lt_iff] at near
    have max := h.distance
    exact (le_iff _ _).2 ⟨defined, max, by omega⟩
  cases d with
  | backward => exact ⟨leads, bound⟩
  | forward => exact ⟨leads, Point.distanceSquared_comm finiteP finiteQ ▸ bound⟩

end Tracer

/-- **The invariant of a walk.** Together with the seed, its points are stored by the tracer and
linked one to the next, from the point it has reached back to the seed. -/
structure Walk.Proper (t : Tracer Float) (f : Float → Option Float) (d : Direction)
    (seed : Point Float) (w : Walk Float) : Prop where
  step : IsLength w.step
  reached : (w.points ++ [seed]).head? = some w.previous
  stored : ∀ p ∈ w.points ++ [seed], t.Stored f p
  chain : (w.points ++ [seed]).IsChain (t.Linked d)

namespace Walk

variable {t : Tracer Float} {f : Float → Option Float} {d : Direction} {seed : Point Float}
  {w w' : Walk Float}

theorem proper_start (h : t.Valid) (hseed : t.Stored f seed) :
    Proper t f d seed (.start t seed) where
  step := h.small
  reached := rfl
  stored := by
    intro p hp
    rw [List.mem_singleton.1 hp]
    exact hseed
  chain := List.isChain_singleton seed

theorem Proper.previous (inv : Proper t f d seed w) : t.Stored f w.previous :=
  inv.stored _ (List.mem_of_head? inv.reached)

theorem Proper.shorten {x : Float} (h : t.Valid) (inv : Proper t f d seed w)
    (hx : t.window.Spans x) : Proper t f d seed (w.shorten x) where
  step := isLength_half (h.finite hx) (h.finite inv.previous.spans)
  reached := inv.reached
  stored := inv.stored
  chain := inv.chain

theorem Proper.move {p : Point Float} (inv : Proper t f d seed w) (hp : t.Stored f p)
    (linked : t.Linked d p w.previous) (distance : Float) :
    Proper t f d seed (w.move t p distance) where
  step := by
    unfold Walk.move
    simp only
    split
    · exact inv.step.double
    · exact inv.step
  reached := rfl
  stored := List.forall_mem_cons.2 ⟨hp, inv.stored⟩
  chain := by
    refine List.isChain_cons.2 ⟨?_, inv.chain⟩
    intro q hq
    have head : some w.previous = some q := inv.reached.symm.trans hq
    obtain rfl := Option.some.inj head
    exact linked

/-- **A step of a walk keeps the invariant.** -/
theorem proper_of_advance? (h : t.Valid) (inv : Proper t f d seed w)
    (step : w.advance? t f d = some w') : Proper t f d seed w' := by
  obtain ⟨incomplete, cases⟩ := Tracer.advance?_cases step
  obtain ⟨inside, leads⟩ := Tracer.target_spec h inv.step inv.previous.spans incomplete
  rcases cases with ⟨-, -, rfl⟩ | ⟨p, sample, ⟨-, -, rfl⟩ | ⟨near, rfl⟩⟩
  · exact inv.shorten h inside
  · exact inv.shorten h inside
  · have stored : t.Stored f p := Tracer.stored_of_sample? inside sample
    rw [← Tracer.x_of_sample? sample] at leads
    exact inv.move stored (Tracer.linked_of_near h stored inv.previous leads near) _

end Walk

/-! ## Runs -/

/-- A run as its users expect it: not empty, by rising `x`, with points of the curve within the
window, and without gaps. -/
structure Run.Sound (t : Tracer Float) (f : Float → Option Float) (r : Run Float) : Prop where
  nonempty : r.points ≠ #[]
  sorted : r.points.toList.Pairwise fun p q => p.x ≤ q.x
  inside : ∀ p ∈ r.points, t.window.xStart ≤ p.x ∧ p.x ≤ t.window.xEnd ∧ f p.x = some p.y ∧
    p.y.abs ≤ t.window.yLimit
  dense : ∀ g ∈ r.gaps, g ≤ t.sampling.maxDistanceSquared

namespace Tracer

variable {t : Tracer Float} {f : Float → Option Float}

theorem walk?_spec {rounds : Nat} {d : Direction} {seed : Point Float} {ps : List (Point Float)}
    (valid : t.Valid) (hseed : t.Stored f seed) (h : t.walk? f rounds d seed = some ps) :
    (∀ p ∈ ps ++ [seed], t.Stored f p) ∧ (ps ++ [seed]).IsChain (t.Linked d) := by
  obtain ⟨w, inv, rfl⟩ := walk?_induction h (Walk.proper_start valid hseed)
    fun w w' inv step => Walk.proper_of_advance? valid inv step
  exact ⟨inv.stored, inv.chain⟩

theorem pairwise_of_chain {ps : List (Point Float)} (chain : ps.IsChain t.Joins) :
    ps.Pairwise fun p q => orderKey p.x ≤ orderKey q.x := by
  let Precedes (p q : Point Float) : Prop := orderKey p.x ≤ orderKey q.x
  have : Trans Precedes Precedes Precedes := ⟨fun h => Int.le_trans h⟩
  have ordered : ps.IsChain Precedes := chain.imp fun p q joins => joins.order
  exact ordered.pairwise

/-- Sorting leaves points alone that are in order already. -/
theorem ofList_toList {ps : List (Point Float)} (chain : ps.IsChain t.Joins) :
    (Run.ofList ps).points.toList = ps := by
  apply List.mergeSort_of_pairwise
  exact (pairwise_of_chain chain).imp decide_eq_true

theorem joins_of_mem_zip {ps : List (Point Float)} (chain : ps.IsChain t.Joins)
    {m : Point Float × Point Float} (hm : m ∈ ps.zip (ps.drop 1)) : t.Joins m.1 m.2 := by
  obtain ⟨i, hi, rfl⟩ := List.mem_iff_getElem.1 hm
  rw [List.length_zip, List.length_drop] at hi
  rw [List.getElem_zip, List.getElem_drop]
  simpa only [Nat.add_comm 1 i] using chain.getElem i (by omega)

theorem sound_of_chain {r : Run Float} (valid : t.Valid) (some : r.points ≠ #[])
    (stored : ∀ p ∈ r.points, t.Stored f p) (chain : r.points.toList.IsChain t.Joins) :
    r.Sound t f := by
  refine ⟨some, ?_, ?_, ?_⟩
  · apply (pairwise_of_chain chain).imp_of_mem
    intro p q hp hq order
    obtain ⟨definedP, -, -⟩ := (spans_iff valid).1 (stored p (Array.mem_toList_iff.1 hp)).spans
    obtain ⟨definedQ, -, -⟩ := (spans_iff valid).1 (stored q (Array.mem_toList_iff.1 hq)).spans
    exact (le_iff _ _).2 ⟨definedP, definedQ, place_le_of_orderKey_le order⟩
  · intro p hp
    obtain ⟨spans, sampled⟩ := stored p hp
    obtain ⟨-, value, -, limit⟩ := sample?_eq_some_iff.1 sampled
    exact ⟨spans.low, spans.high, value, limit⟩
  · intro g hg
    obtain ⟨m, hm, rfl⟩ := List.mem_map.1 hg
    exact (joins_of_mem_zip chain hm).near

/-- **Two walks from a seed are one chain**, the backward one first and the forward one turned
around. -/
theorem chain_of_walks {rounds : Nat} {seed : Point Float} {back ahead : List (Point Float)}
    (valid : t.Valid) (hseed : t.Stored f seed)
    (walkBack : t.walk? f rounds .backward seed = some back)
    (walkAhead : t.walk? f rounds .forward seed = some ahead) :
    (back ++ seed :: ahead.reverse).IsChain t.Joins := by
  have chainForward : (seed :: ahead.reverse).IsChain t.Joins := by
    have turned := List.isChain_reverse.2 (walk?_spec valid hseed walkAhead).2
    rwa [List.reverse_append] at turned
  exact List.isChain_split.2 ⟨(walk?_spec valid hseed walkBack).2, chainForward⟩

/-- **A branch is one chain of samples.** Its two walks meet at the seed, and sorting changes nothing
about that. -/
theorem chain_of_branch? {rounds : Nat} {seed : Point Float} {b : Branch Float} (valid : t.Valid)
    (hseed : t.Stored f seed) (h : t.branch? f rounds seed = some b) :
    b.seed = seed ∧ seed ∈ b.run.points ∧ (∀ p ∈ b.run.points, t.Stored f p) ∧
      b.run.points.toList.IsChain t.Joins := by
  obtain ⟨back, ahead, walkBack, walkAhead, rfl⟩ := branch?_eq_some_iff.1 h
  have chain := chain_of_walks valid hseed walkBack walkAhead
  refine ⟨rfl, ?_, ?_, ?_⟩
  · exact mem_ofList_points.2 (List.mem_append_right _ List.mem_cons_self)
  · intro p hp
    rw [mem_ofList_points, List.mem_append, List.mem_cons, List.mem_reverse] at hp
    rcases hp with hp | rfl | hp
    · exact (walk?_spec valid hseed walkBack).1 p (List.mem_append_left _ hp)
    · exact hseed
    · exact (walk?_spec valid hseed walkAhead).1 p (List.mem_append_left _ hp)
  · rw [ofList_toList chain]
    exact chain

/-- The last `x` of a branch is that of a point of the branch, and no point lies behind it. -/
theorem lastX_spec {rounds : Nat} {seed : Point Float} {b : Branch Float} (valid : t.Valid)
    (hseed : t.Stored f seed) (h : t.branch? f rounds seed = some b) :
    t.window.Spans b.lastX ∧ ∀ p ∈ b.run.points, orderKey p.x ≤ orderKey b.lastX := by
  obtain ⟨-, member, stored, chain⟩ := chain_of_branch? valid hseed h
  obtain ⟨q, hq, last⟩ := b.exists_lastX_eq member
  let Before (x y : Float) : Prop := orderKey x ≤ orderKey y
  refine ⟨last ▸ (stored q hq).spans, fun p hp => ?_⟩
  exact Branch.lastX_of_pairwise (R := Before) (fun _ => Int.le_refl _) (pairwise_of_chain chain) hp

theorem sound_of_branch? {rounds : Nat} {seed : Point Float} {b : Branch Float} (valid : t.Valid)
    (hseed : t.Stored f seed) (h : t.branch? f rounds seed = some b) : b.run.Sound t f := by
  obtain ⟨-, member, stored, chain⟩ := chain_of_branch? valid hseed h
  refine sound_of_chain valid ?_ stored chain
  intro empty
  rw [empty] at member
  exact Array.not_mem_empty _ member

/-- What the scan keeps of its cursor: it is defined, and not before the window. -/
structure IsCursor (t : Tracer Float) (c : Float) : Prop where
  defined : code c ≤ infinityCode
  low : place t.window.xStart ≤ place c

theorem isCursor_start (valid : t.Valid) : t.IsCursor t.window.xStart :=
  ⟨((spans_iff valid).1 valid.spans_start).1, Int.le_refl _⟩

theorem IsCursor.spans {c : Float} (hc : t.IsCursor c) (valid : t.Valid)
    (inside : c ≤ t.window.xEnd) : t.window.Spans c :=
  (spans_iff valid).2 ⟨hc.defined, hc.low, ((le_iff _ _).1 inside).2.2⟩

/-- A seed is found within the window. -/
theorem IsCursor.stored {c : Float} (hc : t.IsCursor c) (valid : t.Valid)
    (inside : c ≤ t.window.xEnd) {seed : Point Float} (sample : t.sample? f c = some seed) :
    t.Stored f seed := stored_of_sample? (hc.spans valid inside) sample

/-- The cursor of the scan only moves to the right. -/
theorem cursor_spec {x : Float} (valid : t.Valid) (hx : t.window.Spans x) :
    t.IsCursor (x + t.sampling.largeIncrement) ∧ place x ≤ place (x + t.sampling.largeIncrement) := by
  obtain ⟨defined, rise⟩ := orderKey_le_orderKey_add (valid.finite hx) valid.large.defined
    valid.large.positive
  obtain ⟨-, low, -⟩ := (spans_iff valid).1 hx
  have rise := place_le_of_orderKey_le rise
  exact ⟨⟨defined, Int.le_trans low rise⟩, rise⟩

/-- A branch that the scan finds from this cursor on. -/
structure Found (t : Tracer Float) (f : Float → Option Float) (rounds : Nat) (c : Float)
    (b : Branch Float) : Prop where
  stored : t.Stored f b.seed
  branch : t.branch? f rounds b.seed = some b
  behind : place c ≤ place b.seed.x

/-- A branch ends at its seed or behind it. -/
theorem Found.spec {rounds : Nat} {c : Float} {b : Branch Float} (h : t.Found f rounds c b)
    (valid : t.Valid) : t.window.Spans b.lastX ∧ place c ≤ place b.lastX := by
  obtain ⟨-, member, -⟩ := chain_of_branch? valid h.stored h.branch
  obtain ⟨spans, behind⟩ := lastX_spec valid h.stored h.branch
  exact ⟨spans, Int.le_trans h.behind (place_le_of_orderKey_le (behind _ member))⟩

theorem IsCursor.found {rounds : Nat} {c : Float} (hc : t.IsCursor c) (valid : t.Valid)
    (inside : c ≤ t.window.xEnd) {seed : Point Float} {b : Branch Float}
    (sample : t.sample? f c = some seed) (branch : t.branch? f rounds seed = some b) :
    t.Found f rounds c b := by
  have stored := hc.stored valid inside sample
  obtain rfl : b.seed = seed := (chain_of_branch? valid stored branch).1
  have at_cursor : b.seed.x = c := x_of_sample? sample
  exact ⟨stored, branch, Int.le_of_eq (congrArg place at_cursor.symm)⟩

/-- **What the scan finds**: branches through seeds at the cursor or behind it. -/
theorem found_of_scan? {rounds n : Nat} {c : Float} {bs : List (Branch Float)} (valid : t.Valid)
    (hc : t.IsCursor c) (h : t.scan? f rounds n c = some bs) :
    ∀ b ∈ bs, t.Found f rounds c b := by
  refine scan?_induction (P := fun c' => t.IsCursor c' ∧ place c ≤ place c') h
    ⟨hc, Int.le_refl _⟩ ?_ ?_
  · rintro c' ⟨cursor, behind⟩ inside
    obtain ⟨next, rise⟩ := cursor_spec valid (cursor.spans valid inside)
    exact ⟨next, Int.le_trans behind rise⟩
  · rintro c' seed b ⟨cursor, behind⟩ inside sample branch
    have found := cursor.found valid inside sample branch
    have behindAll : t.Found f rounds c b :=
      ⟨found.stored, found.branch, Int.le_trans behind found.behind⟩
    obtain ⟨spansLast, before⟩ := behindAll.spec valid
    obtain ⟨next, rise⟩ := cursor_spec valid spansLast
    exact ⟨behindAll, next, Int.le_trans before rise⟩

theorem sound_of_trace? {rounds : Nat} {bs : List (Branch Float)} (valid : t.Valid)
    (h : t.trace? f rounds = some bs) : ∀ b ∈ bs, b.run.Sound t f := by
  intro b hb
  have found := found_of_scan? valid (isCursor_start valid) h b hb
  exact sound_of_branch? valid found.stored found.branch

/-- **Traced runs are sound**, for every formula, all settings that are accepted, and a finite
window: no run is empty, its points rise in `x`, lie in the window and on the curve, and neighbours
are near. -/
theorem sound_of_trace {settings : Settings} {t : Tracer Float} (valid : settings.validate = .ok ())
    (start : settings.window.xStart.isFinite = true) (stop : settings.window.xEnd.isFinite = true)
    (made : settings.tracer = .ok t) {e : Formula Float} {rounds : Nat}
    {branches : List (Branch Float)} (traced : t.traceFormula? e rounds = some branches) :
    ∀ b ∈ branches, b.run.Sound t fun x => e.eval? x := by
  unfold traceFormula? at traced
  split at traced
  · obtain rfl := Option.some.inj traced
    intro b hb
    cases hb
  · exact sound_of_trace? (Settings.valid_of_validate valid start stop made) traced

/-- The line through the origin is traced into one run of three points, a sound one. -/
theorem sound_of_trace_line :
    ∃ (settings : Settings) (t : Tracer Float) (branches : List (Branch Float)),
      settings.validate = .ok () ∧ settings.tracer = .ok t ∧
        t.traceFormula? .var 5 = some branches ∧ (branches.map fun b => b.run.points.size) = [3] ∧
          ∀ b ∈ branches, b.run.Sound t fun x => (Formula.var : Formula Float).eval? x := by
  let settings : Settings := { Settings.standard with
    window := ⟨0.0, 1.0, 10.0⟩
    sampling := { Sampling.standard with
      smallIncrement := 0.5, maxDistanceSquared := 1.0, maxPoints := 2 } }
  let t : Tracer Float := ⟨settings.window, settings.sampling⟩
  let f : Float → Option Float := fun x => (Formula.var : Formula Float).eval? x
  let seed : Point Float := ⟨0.0, 0.0⟩
  let run : Run Float := ⟨#[seed, ⟨0.5, 0.5⟩, ⟨1.0, 1.0⟩]⟩
  have faultless : settings.fault? = none := Option.isNone_iff_eq_none.1 (by decide +kernel)
  have valid : settings.validate = .ok () := by rw [Settings.validate, faultless]
  have made : settings.tracer = .ok t := by
    rw [Settings.tracer, Tracer.make?, if_neg (by decide +kernel), if_neg (by decide +kernel)]
  have walkBack : t.walk? f 5 .backward seed = some [] := by decide +kernel
  have walkAhead : t.walk? f 5 .forward seed = some [⟨1.0, 1.0⟩, ⟨0.5, 0.5⟩] := by
    decide +kernel
  have sorted : Run.ofList [seed, ⟨0.5, 0.5⟩, ⟨1.0, 1.0⟩] = run := by
    rw [Run.ofList, List.mergeSort_of_pairwise (by decide +kernel)]
  have branch : t.branch? f 5 seed = some ⟨seed, run⟩ :=
    branch?_eq_some_iff.2 ⟨_, _, walkBack, walkAhead, by rw [← sorted]; rfl⟩
  have behind : t.scan? f 5 4 (Branch.lastX ⟨seed, run⟩ + t.sampling.largeIncrement) = some [] := by
    rw [scan?, if_neg (by decide +kernel)]
  have sample : t.sample? f t.window.xStart = some seed := by decide +kernel
  have scanned : t.scan? f 5 5 t.window.xStart = some [⟨seed, run⟩] := by
    rw [scan?, if_pos (by decide +kernel)]
    simp only [sample, branch, behind, Option.map_some]
  have traced : t.traceFormula? .var 5 = some [⟨seed, run⟩] := by
    rw [traceFormula?, if_neg (by decide), trace?]
    exact scanned
  exact ⟨settings, t, [⟨seed, run⟩], valid, made, traced, rfl,
    sound_of_trace valid (by decide +kernel) (by decide +kernel) made traced⟩

end Tracer

end CurvePuzzle
