import CurvePuzzle.Curve.Tracer

/-!
# What a tracer does

Every loop of the tracer is taken apart once, over any number type.

* `advance?_cases`: one step of a walk shortens the step or stores a sample.
* `advance?_eq_none_cases`: the ways in which a walk is over.
* `scan?_succ_eq_some_iff`: one round of the coarse scan.
* `walk?_induction`, `scan?_induction`: what the steps of a walk and of the coarse scan keep.
* `scan?_pairwise`, `resume_ne_of_scan?`: branches found one behind the other.
* `trace?_mono`: what is found does not depend on the number of rounds.
* `CountsDown`: why a scan ends, and how many branches it may find.
* `sampled_of_mem_trace?`: all points of all branches are samples.
-/

set_option autoImplicit false

namespace CurvePuzzle

/-- The last `x` of a branch is that of one of its points. -/
theorem Branch.exists_lastX_eq {α : Type} {b : Branch α} {p : Point α} (hp : p ∈ b.run.points) :
    ∃ q ∈ b.run.points, b.lastX = q.x := by
  cases last : b.run.points.back? with
  | none =>
    rw [Array.back?_eq_none_iff.1 last] at hp
    exact absurd hp (Array.not_mem_empty p)
  | some q => exact ⟨q, Array.mem_of_back? last, by rw [lastX, last]; rfl⟩

/-- In a branch whose points are in order, none comes after the last `x`. -/
theorem Branch.lastX_of_pairwise {α : Type} {b : Branch α} {R : α → α → Prop} (refl : ∀ x, R x x)
    (sorted : b.run.points.toList.Pairwise fun p q => R p.x q.x) {p : Point α}
    (hp : p ∈ b.run.points) : R p.x b.lastX := by
  obtain ⟨before, q, split⟩ : ∃ before q, b.run.points.toList = before ++ [q] :=
    ⟨_, _, (List.dropLast_concat_getLast (List.ne_nil_of_mem (Array.mem_toList_iff.2 hp))).symm⟩
  have last : b.lastX = q.x := by
    rw [lastX, ← Array.getLast?_toList, split, List.getLast?_concat]
    rfl
  rw [← Array.mem_toList_iff, split] at hp
  rw [split] at sorted
  rw [last]
  rcases List.mem_append.1 hp with hp | hp
  · exact (List.pairwise_append.1 sorted).2.2 p hp q List.mem_cons_self
  · rw [List.mem_singleton.1 hp]
    exact refl q.x

namespace Tracer

variable {α : Type} [Scalar α]

theorem mem_ofList_points {ps : List (Point α)} {p : Point α} :
    p ∈ (Run.ofList ps).points ↔ p ∈ ps := by
  rw [Run.ofList, List.mem_toArray, List.mem_mergeSort]

/-- A walk that is not over has room for a point. -/
theorem room_ne_zero {t : Tracer α} {d : Direction} {w : Walk α}
    (incomplete : w.isComplete t d = false) : w.room ≠ 0 := by
  intro none
  rw [Walk.isComplete, none] at incomplete
  cases incomplete

variable [DecidableLE α]

/-- The point is what the tracer finds at its `x`. -/
def Sampled (t : Tracer α) (f : α → Option α) (p : Point α) : Prop := t.sample? f p.x = some p

theorem sample?_eq_some_iff {t : Tracer α} {f : α → Option α} {x : α} {p : Point α} :
    t.sample? f x = some p ↔
      p.x = x ∧ f x = some p.y ∧ Scalar.isFinite p.y = true ∧
        Scalar.abs p.y ≤ t.window.yLimit := by
  unfold sample?
  cases value : f x with
  | none => simp
  | some y =>
    obtain ⟨px, py⟩ := p
    simp only [Bool.and_eq_true, decide_eq_true_eq, Option.ite_none_right_eq_some, Option.some_inj,
      Point.mk.injEq]
    constructor
    · rintro ⟨⟨finite, limit⟩, rfl, rfl⟩
      exact ⟨rfl, rfl, finite, limit⟩
    · rintro ⟨rfl, rfl, finite, limit⟩
      exact ⟨⟨finite, limit⟩, rfl, rfl⟩

theorem x_of_sample? {t : Tracer α} {f : α → Option α} {x : α} {p : Point α}
    (h : t.sample? f x = some p) : p.x = x := (sample?_eq_some_iff.1 h).1

theorem sampled_of_sample? {t : Tracer α} {f : α → Option α} {x : α} {p : Point α}
    (h : t.sample? f x = some p) : t.Sampled f p := by
  rw [Sampled, x_of_sample? h]
  exact h

variable [DecidableLT α]

/-- **One step of a walk** that is not over: where there is no sample, or one too far away, the step
is shortened; any other sample is stored. -/
theorem advance?_cases {t : Tracer α} {f : α → Option α} {d : Direction} {w w' : Walk α}
    (h : w.advance? t f d = some w') :
    w.isComplete t d = false ∧
      ((t.sample? f (t.target d w) = none ∧ t.sampling.smallIncrement < w.step ∧
          w' = w.shorten (t.target d w)) ∨
        ∃ p, t.sample? f (t.target d w) = some p ∧
          ((t.sampling.maxDistanceSquared < p.distanceSquared w.previous ∧
              ¬w.step < t.sampling.minStep ∧ w' = w.shorten (t.target d w)) ∨
            (¬t.sampling.maxDistanceSquared < p.distanceSquared w.previous ∧
              w' = w.move t p (p.distanceSquared w.previous)))) := by
  unfold Walk.advance? at h
  split at h
  · cases h
  rename_i open'
  refine ⟨by simpa using open', ?_⟩
  simp only at h
  split at h
  · rename_i none
    split at h
    · rename_i wide
      exact .inl ⟨none, wide, (Option.some.inj h).symm⟩
    · cases h
  · rename_i p sample
    refine .inr ⟨p, sample, ?_⟩
    split at h
    · rename_i far
      split at h
      · cases h
      · rename_i coarse
        exact .inl ⟨far, coarse, (Option.some.inj h).symm⟩
    · rename_i near
      exact .inr ⟨near, (Option.some.inj h).symm⟩

/-- **Where a walk is over**: it is complete, or there is no sample and the step is as short as it was
at first, or the sample is too far away and the step is as short as it may be. -/
theorem advance?_eq_none_cases {t : Tracer α} {f : α → Option α} {d : Direction} {w : Walk α}
    (h : w.advance? t f d = none) :
    w.isComplete t d = true ∨
      (t.sample? f (t.target d w) = none ∧ ¬t.sampling.smallIncrement < w.step) ∨
        ∃ p, t.sample? f (t.target d w) = some p ∧
          t.sampling.maxDistanceSquared < p.distanceSquared w.previous ∧
            w.step < t.sampling.minStep := by
  unfold Walk.advance? at h
  split at h
  · exact .inl ‹_›
  simp only at h
  split at h
  · rename_i none
    split at h
    · cases h
    · exact .inr (.inl ⟨none, ‹_›⟩)
  · rename_i p sample
    split at h
    · rename_i far
      split at h
      · exact .inr (.inr ⟨p, sample, far, ‹_›⟩)
      · cases h
    · cases h

/-- What holds at the start of a walk and is kept by its steps holds where the walk is over. -/
theorem walk?_stopped {t : Tracer α} {f : α → Option α} {rounds : Nat} {d : Direction}
    {seed : Point α} {ps : List (Point α)} {P : Walk α → Prop}
    (h : t.walk? f rounds d seed = some ps) (start : P (.start t seed))
    (keep : ∀ w w', P w → w.advance? t f d = some w' → P w') :
    ∃ w, P w ∧ w.advance? t f d = none ∧ w.points = ps := by
  obtain ⟨w, run, points⟩ := Option.map_eq_some_iff.1 h
  exact ⟨w, Loop.run?_induction keep run start, Loop.step_of_run? run, points⟩

/-- What holds at the start of a walk and is kept by its steps holds of the whole walk. -/
theorem walk?_induction {t : Tracer α} {f : α → Option α} {rounds : Nat} {d : Direction}
    {seed : Point α} {ps : List (Point α)} {P : Walk α → Prop}
    (h : t.walk? f rounds d seed = some ps) (start : P (.start t seed))
    (keep : ∀ w w', P w → w.advance? t f d = some w' → P w') : ∃ w, P w ∧ w.points = ps := by
  obtain ⟨w, kept, -, points⟩ := walk?_stopped h start keep
  exact ⟨w, kept, points⟩

/-- More rounds lead no farther than to where a walk is over. -/
theorem walk?_mono {t : Tracer α} {f : α → Option α} {rounds more : Nat} {d : Direction}
    {seed : Point α} {ps : List (Point α)} (h : t.walk? f rounds d seed = some ps)
    (le : rounds ≤ more) : t.walk? f more d seed = some ps := by
  obtain ⟨w, run, points⟩ := Option.map_eq_some_iff.1 h
  exact Option.map_eq_some_iff.2 ⟨w, Loop.run?_mono run le, points⟩

theorem branch?_eq_some_iff {t : Tracer α} {f : α → Option α} {rounds : Nat} {seed : Point α}
    {b : Branch α} :
    t.branch? f rounds seed = some b ↔
      ∃ back ahead, t.walk? f rounds .backward seed = some back ∧
        t.walk? f rounds .forward seed = some ahead ∧
          b = ⟨seed, .ofList (back ++ seed :: ahead.reverse)⟩ := by
  unfold branch?
  constructor
  · intro h
    split at h
    · rename_i back ahead walkBack walkAhead
      exact ⟨back, ahead, walkBack, walkAhead, (Option.some.inj h).symm⟩
    · cases h
  · rintro ⟨back, ahead, walkBack, walkAhead, rfl⟩
    rw [walkBack, walkAhead]

theorem exists_branch?_of_walks {t : Tracer α} {f : α → Option α} {rounds : Nat} {seed : Point α}
    (walks : ∀ d, ∃ ps, t.walk? f rounds d seed = some ps) :
    ∃ b, t.branch? f rounds seed = some b := by
  obtain ⟨back, walkBack⟩ := walks .backward
  obtain ⟨ahead, walkAhead⟩ := walks .forward
  exact ⟨_, branch?_eq_some_iff.2 ⟨back, ahead, walkBack, walkAhead, rfl⟩⟩

theorem branch?_mono {t : Tracer α} {f : α → Option α} {rounds more : Nat} {seed : Point α}
    {b : Branch α} (h : t.branch? f rounds seed = some b) (le : rounds ≤ more) :
    t.branch? f more seed = some b := by
  obtain ⟨back, ahead, walkBack, walkAhead, rfl⟩ := branch?_eq_some_iff.1 h
  exact branch?_eq_some_iff.2 ⟨back, ahead, walk?_mono walkBack le, walk?_mono walkAhead le, rfl⟩

theorem seed_mem_of_branch? {t : Tracer α} {f : α → Option α} {rounds : Nat} {seed : Point α}
    {b : Branch α} (h : t.branch? f rounds seed = some b) : seed ∈ b.run.points := by
  obtain ⟨back, ahead, -, -, rfl⟩ := branch?_eq_some_iff.1 h
  exact mem_ofList_points.2 (List.mem_append_right _ List.mem_cons_self)

section Scan

variable {t : Tracer α} {f : α → Option α} {rounds : Nat}

/-- **One round of the scan**: it is over, or has found no sample, or the seed of a branch. -/
theorem scan?_succ_eq_some_iff {n : Nat} {c : α} {bs : List (Branch α)} :
    t.scan? f rounds (n + 1) c = some bs ↔
      (¬c ≤ t.window.xEnd ∧ bs = []) ∨
        (c ≤ t.window.xEnd ∧ t.sample? f c = none ∧
          t.scan? f rounds n (c + t.sampling.largeIncrement) = some bs) ∨
        (c ≤ t.window.xEnd ∧ ∃ seed b rest, t.sample? f c = some seed ∧
          t.branch? f rounds seed = some b ∧
            t.scan? f rounds n (b.lastX + t.sampling.largeIncrement) = some rest ∧
              bs = b :: rest) := by
  rw [scan?]
  constructor
  · intro h
    split at h
    · rename_i inside
      split at h
      · rename_i none
        exact .inr (.inl ⟨inside, none, h⟩)
      · rename_i seed sample
        split at h
        · cases h
        · rename_i b branch
          obtain ⟨rest, scanned, rfl⟩ := Option.map_eq_some_iff.1 h
          exact .inr (.inr ⟨inside, seed, b, rest, sample, branch, scanned, rfl⟩)
    · rename_i outside
      exact .inl ⟨outside, (Option.some.inj h).symm⟩
  · rintro (⟨outside, rfl⟩ | ⟨inside, none, scanned⟩ |
      ⟨inside, seed, b, rest, sample, branch, scanned, rfl⟩)
    · rw [if_neg outside]
    · rw [if_pos inside, none]
      exact scanned
    · simp only [if_pos inside, sample, branch, scanned, Option.map_some]

/-- **What the coarse scan keeps** of its cursor, it may use of every branch it finds. -/
theorem scan?_induction {n : Nat} {cursor : α} {bs : List (Branch α)} {P : α → Prop}
    {Q : Branch α → Prop} (h : t.scan? f rounds n cursor = some bs) (start : P cursor)
    (skip : ∀ c, P c → c ≤ t.window.xEnd → P (c + t.sampling.largeIncrement))
    (find : ∀ c seed b, P c → c ≤ t.window.xEnd → t.sample? f c = some seed →
      t.branch? f rounds seed = some b → Q b ∧ P (b.lastX + t.sampling.largeIncrement)) :
    ∀ b ∈ bs, Q b := by
  induction n generalizing cursor bs with
  | zero => cases h
  | succ n ih =>
    rcases scan?_succ_eq_some_iff.1 h with
      ⟨-, rfl⟩ | ⟨inside, -, scanned⟩ | ⟨inside, seed, b, rest, sample, branch, scanned, rfl⟩
    · exact List.forall_mem_nil Q
    · exact ih scanned (skip cursor start inside)
    · obtain ⟨found, next⟩ := find cursor seed b start inside sample branch
      exact List.forall_mem_cons.2 ⟨found, ih scanned next⟩

/-- More rounds find nothing else, be they of the scan or of its walks. -/
theorem scan?_mono {m n more : Nat} {c : α} {bs : List (Branch α)}
    (h : t.scan? f rounds m c = some bs) (le : m ≤ n) (longer : rounds ≤ more) :
    t.scan? f more n c = some bs := by
  induction m generalizing n c bs with
  | zero => cases h
  | succ m ih =>
    obtain ⟨n, rfl⟩ : ∃ k, n = k + 1 := ⟨n - 1, by omega⟩
    have le : m ≤ n := Nat.le_of_succ_le_succ le
    rw [scan?_succ_eq_some_iff] at h ⊢
    rcases h with ended | ⟨inside, none, scanned⟩ |
      ⟨inside, seed, b, rest, sample, branch, scanned, cons⟩
    · exact .inl ended
    · exact .inr (.inl ⟨inside, none, ih scanned le⟩)
    · exact .inr (.inr
        ⟨inside, seed, b, rest, sample, branch?_mono branch longer, ih scanned le, cons⟩)

/-- **The number of rounds is no part of a trace.** -/
theorem trace?_mono {more : Nat} {bs : List (Branch α)} (h : t.trace? f rounds = some bs)
    (le : rounds ≤ more) : t.trace? f more = some bs :=
  scan?_mono h le le

/-- Behind each branch that is found, the scan is resumed with fewer rounds. -/
theorem scan?_resume {n : Nat} {c : α} {bs : List (Branch α)} (h : t.scan? f rounds n c = some bs)
    {b : Branch α} (hb : b ∈ bs) :
    ∃ m ≤ n, ∃ rest, t.scan? f rounds m (b.lastX + t.sampling.largeIncrement) = some rest ∧
      rest.length < bs.length := by
  induction n generalizing c bs with
  | zero => cases h
  | succ n ih =>
    have later {m : Nat} (le : m ≤ n) : m ≤ n + 1 := Nat.le_succ_of_le le
    rcases scan?_succ_eq_some_iff.1 h with
      ⟨-, rfl⟩ | ⟨-, -, scanned⟩ | ⟨-, seed, b₀, rest, -, -, scanned, rfl⟩
    · cases hb
    · obtain ⟨m, le, resumed⟩ := ih scanned hb
      exact ⟨m, later le, resumed⟩
    · rcases List.mem_cons.1 hb with rfl | hb
      · exact ⟨n, Nat.le_succ n, rest, scanned, Nat.lt_succ_self _⟩
      · obtain ⟨m, le, rest', resumed, less⟩ := ih scanned hb
        exact ⟨m, later le, rest', resumed, Nat.lt_succ_of_lt less⟩

/-- What holds between each branch and all those that are found behind it, holds pairwise. -/
theorem scan?_pairwise {R : Branch α → Branch α → Prop} {n : Nat} {c : α} {bs : List (Branch α)}
    (h : t.scan? f rounds n c = some bs)
    (each : ∀ b ∈ bs, ∀ m rest,
      t.scan? f rounds m (b.lastX + t.sampling.largeIncrement) = some rest → ∀ b' ∈ rest, R b b') :
    bs.Pairwise R := by
  induction n generalizing c bs with
  | zero => cases h
  | succ n ih =>
    rcases scan?_succ_eq_some_iff.1 h with
      ⟨-, rfl⟩ | ⟨-, -, scanned⟩ | ⟨-, seed, b, rest, -, -, scanned, rfl⟩
    · exact .nil
    · exact ih scanned each
    · obtain ⟨first, each⟩ := List.forall_mem_cons.1 each
      exact List.pairwise_cons.2 ⟨first n rest scanned, ih scanned each⟩

/-- **A scan that ends never resumes where it began**, or it would find the same again and again. -/
theorem resume_ne_of_scan? {n : Nat} {c : α} {bs : List (Branch α)}
    (h : t.scan? f rounds n c = some bs) {b : Branch α} (hb : b ∈ bs) :
    b.lastX + t.sampling.largeIncrement ≠ c := by
  intro again
  obtain ⟨m, le, rest, resumed, less⟩ := scan?_resume h hb
  rw [again] at resumed
  obtain rfl := Option.some.inj (h.symm.trans (scan?_mono resumed le (Nat.le_refl _)))
  exact Nat.lt_irrefl _ less

/-! ## Scans that end -/

/-- A number that every round of the scan lowers, as long as its cursor keeps to the places of `P`. -/
structure CountsDown (t : Tracer α) (f : α → Option α) (rounds : Nat) (P : α → Prop)
    (left : α → Nat) : Prop where
  skip : ∀ c, P c → c ≤ t.window.xEnd →
    P (c + t.sampling.largeIncrement) ∧ left (c + t.sampling.largeIncrement) < left c
  find : ∀ c seed b, P c → c ≤ t.window.xEnd → t.sample? f c = some seed →
    t.branch? f rounds seed = some b →
      P (b.lastX + t.sampling.largeIncrement) ∧ left (b.lastX + t.sampling.largeIncrement) < left c

variable {P : α → Prop} {left : α → Nat}

/-- **A scan ends** when it counts down, and all walks end that it needs. -/
theorem CountsDown.exists_scan? (down : t.CountsDown f rounds P left)
    (branches : ∀ c seed, P c → c ≤ t.window.xEnd → t.sample? f c = some seed →
      ∃ b, t.branch? f rounds seed = some b) {n : Nat} {c : α} (start : P c)
    (enough : left c < n) : ∃ bs, t.scan? f rounds n c = some bs := by
  induction n generalizing c with
  | zero => exact absurd enough (Nat.not_lt_zero _)
  | succ n ih =>
    by_cases inside : c ≤ t.window.xEnd
    · cases sample : t.sample? f c with
      | none =>
        obtain ⟨next, less⟩ := down.skip c start inside
        obtain ⟨bs, scanned⟩ := ih next (by omega)
        exact ⟨bs, scan?_succ_eq_some_iff.2 (.inr (.inl ⟨inside, sample, scanned⟩))⟩
      | some seed =>
        obtain ⟨b, branch⟩ := branches c seed start inside sample
        obtain ⟨next, less⟩ := down.find c seed b start inside sample branch
        obtain ⟨rest, scanned⟩ := ih next (by omega)
        exact ⟨b :: rest, scan?_succ_eq_some_iff.2
          (.inr (.inr ⟨inside, seed, b, rest, sample, branch, scanned, rfl⟩))⟩
    · exact ⟨[], scan?_succ_eq_some_iff.2 (.inl ⟨inside, rfl⟩)⟩

/-- **A scan that counts down finds no more branches than it counts.** -/
theorem CountsDown.length_le (down : t.CountsDown f rounds P left) {n : Nat} {c : α}
    {bs : List (Branch α)} (start : P c) (h : t.scan? f rounds n c = some bs) :
    bs.length ≤ left c := by
  induction n generalizing c bs with
  | zero => cases h
  | succ n ih =>
    rcases scan?_succ_eq_some_iff.1 h with
      ⟨-, rfl⟩ | ⟨inside, -, scanned⟩ | ⟨inside, seed, b, rest, sample, branch, scanned, rfl⟩
    · exact Nat.zero_le _
    · obtain ⟨next, less⟩ := down.skip c start inside
      exact Nat.le_trans (ih next scanned) (Nat.le_of_lt less)
    · obtain ⟨next, less⟩ := down.find c seed b start inside sample branch
      exact Nat.succ_le_of_lt (Nat.lt_of_le_of_lt (ih next scanned) less)

end Scan

/-! ## All points are samples -/

theorem sampled_of_mem_walk? {t : Tracer α} {f : α → Option α} {rounds : Nat} {d : Direction}
    {seed : Point α} {ps : List (Point α)} (h : t.walk? f rounds d seed = some ps) :
    ∀ p ∈ ps, t.Sampled f p := by
  obtain ⟨w, sampled, rfl⟩ := walk?_induction (P := fun w => ∀ p ∈ w.points, t.Sampled f p) h
    (fun p hp => by cases hp) fun w w' ih step => by
      obtain ⟨-, ⟨-, -, rfl⟩ | ⟨p, sample, ⟨-, -, rfl⟩ | ⟨-, rfl⟩⟩⟩ := advance?_cases step
      · exact ih
      · exact ih
      · exact List.forall_mem_cons.2 ⟨sampled_of_sample? sample, ih⟩
  exact sampled

theorem sampled_of_mem_branch? {t : Tracer α} {f : α → Option α} {rounds : Nat} {seed : Point α}
    {b : Branch α} (hseed : t.Sampled f seed) (h : t.branch? f rounds seed = some b) :
    ∀ p ∈ b.run.points, t.Sampled f p := by
  obtain ⟨back, ahead, walkBack, walkAhead, rfl⟩ := branch?_eq_some_iff.1 h
  intro p hp
  rw [mem_ofList_points, List.mem_append, List.mem_cons, List.mem_reverse] at hp
  rcases hp with hp | rfl | hp
  · exact sampled_of_mem_walk? walkBack p hp
  · exact hseed
  · exact sampled_of_mem_walk? walkAhead p hp

/-- **A tracer stores samples only.** -/
theorem sampled_of_mem_trace? {t : Tracer α} {f : α → Option α} {rounds : Nat}
    {bs : List (Branch α)} (h : t.trace? f rounds = some bs) :
    ∀ b ∈ bs, ∀ p ∈ b.run.points, t.Sampled f p :=
  scan?_induction (P := fun _ => True) h trivial (fun _ _ _ => trivial)
    fun _ _ _ _ _ sample branch =>
      ⟨sampled_of_mem_branch? (sampled_of_sample? sample) branch, trivial⟩

end Tracer

end CurvePuzzle
