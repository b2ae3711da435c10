import CurvePuzzle.Proofs.ScoreSum
import CurvePuzzle.Proofs.Tracing
import CurvePuzzle.Round.Basic

/-!
# Every hit is a hit

Two algorithms report that a curve passes through a dot: the traced runs, cut to the window of the
dot, and the search around its centre. Neither reports it without a point of the curve in the
circle, and so a round counts no dot that the curve of a slot misses.

* `Dot.touches_of_isHitByRuns`, `Dot.touches_of_isHitBySearch`: each algorithm for itself.
* `Outcome.Backed`, `Round.backed_of_playSlots`: the dots behind the counts of a slot.
* `Round.hits_are_touched`: a reported hit, a counted dot and a void round have a point of the
  curve behind them.
-/

set_option autoImplicit false

namespace CurvePuzzle

/-- The formula has a value at some place, and the point it gives there lies in the circle. -/
def Dot.Touches (d : Dot) (e : Formula Float) : Prop :=
  ∃ x y, e.eval? x = some y ∧ Scalar.isFinite y = true ∧ d.contains x y = true

/-! ## By the runs -/

theorem Run.mem_of_mem_inWindow {r : Run Float} {low high : Float} {p : Point Float}
    (h : p ∈ r.inWindow low high) : p ∈ r.points := by
  unfold Run.inWindow at h
  rw [← Array.mem_toList_iff, Array.toList_extract, List.extract_eq_take_drop] at h
  exact Array.mem_toList_iff.1 (List.mem_of_mem_drop (List.mem_of_mem_take h))

namespace Dot

theorem exists_of_isHitByRuns {d : Dot} {runs : List (Run Float)}
    (h : d.isHitByRuns runs = true) : ∃ r ∈ runs, ∃ p ∈ r.points, d.contains p.x p.y = true := by
  obtain ⟨r, hr, reached⟩ := List.any_eq_true.1 h
  obtain ⟨i, small, inside⟩ := Array.any_eq_true.1 reached
  exact ⟨r, hr, _, Run.mem_of_mem_inWindow (Array.getElem_mem small), inside⟩

/-- **What the runs of a traced formula report.** All their points are samples of its curve. -/
theorem touches_of_isHitByRuns {d : Dot} {t : Tracer Float} {e : Formula Float} {rounds : Nat}
    {branches : List (Branch Float)} (traced : t.traceFormula? e rounds = some branches)
    (h : d.isHitByRuns (branches.map Branch.run) = true) : d.Touches e := by
  obtain ⟨r, hr, p, hp, inside⟩ := exists_of_isHitByRuns h
  obtain ⟨b, hb, rfl⟩ := List.mem_map.1 hr
  unfold Tracer.traceFormula? at traced
  split at traced
  · obtain rfl := Option.some.inj traced
    cases hb
  · have sampled := Tracer.sampled_of_mem_trace? traced b hb p hp
    obtain ⟨-, value, finite, -⟩ := Tracer.sample?_eq_some_iff.1 sampled
    exact ⟨p.x, p.y, value, finite, inside⟩

end Dot

/-! ## By the search -/

namespace Search

variable {f : Float → Option Float} {d : Dot}

theorem exists_of_reaches {x : Float} (h : reaches (probe? f d x) = true) :
    ∃ y, f x = some y ∧ Scalar.isFinite y = true ∧ d.contains x y = true := by
  unfold reaches probe? at h
  cases value : f x with
  | none =>
    rw [value] at h
    cases h
  | some y =>
    rw [value] at h
    simp only at h
    split at h
    · rename_i finite
      exact ⟨y, rfl, finite, h⟩
    · cases h

/-- A search that has found something has probed a point in the circle, wherever its moves and its
random jumps have taken it. -/
theorem exists_of_found {moves : Nat} {s : Search} (h : (go f d moves s).1 = .found) :
    ∃ x y, f x = some y ∧ Scalar.isFinite y = true ∧ d.contains x y = true := by
  induction moves generalizing s with
  | zero => cases h
  | succ moves ih =>
    rw [go] at h
    split at h
    · cases h
    · simp only at h
      split at h
      · rename_i reached
        rw [Bool.or_eq_true, Bool.or_eq_true] at reached
        rcases reached with (reached | reached) | reached
        · exact ⟨_, exists_of_reaches reached⟩
        · exact ⟨_, exists_of_reaches reached⟩
        · exact ⟨_, exists_of_reaches reached⟩
      · exact ih h

end Search

namespace Dot

theorem touches_of_isHitBySearch {d : Dot} {e : Formula Float} {source : RandomSource}
    (h : (d.isHitBySearch e source).value.1 = true) : d.Touches e := by
  unfold isHitBySearch at h
  split at h
  · cases h
  · exact Search.exists_of_found (of_decide_eq_true h)

/-- A reported hit comes from the runs or from the search. -/
theorem touches_of_isHit {d : Dot} {e : Formula Float} {runs : Option (List (Run Float))}
    {source : RandomSource} (known : ∀ rs, runs = some rs → d.isHitByRuns rs = true → d.Touches e)
    (h : (d.isHit e runs source).value.1 = true) : d.Touches e := by
  unfold isHit at h
  split at h
  · cases h
  · split at h
    · rename_i reached
      obtain ⟨rs, hrs, reached⟩ := (Option.any_eq_true _ _).1 reached
      exact known rs hrs reached
    · exact touches_of_isHitBySearch h

theorem touches_of_isHit_some {d : Dot} {e : Formula Float} {runs : List (Run Float)}
    {source : RandomSource} (sound : d.isHitByRuns runs = true → d.Touches e)
    (h : (d.isHit e (some runs) source).value.1 = true) : d.Touches e := by
  apply touches_of_isHit _ h
  intro rs hrs
  obtain rfl := Option.some.inj hrs
  exact sound

theorem touches_of_isHit_none {d : Dot} {e : Formula Float} {source : RandomSource}
    (h : (d.isHit e none source).value.1 = true) : d.Touches e := by
  apply touches_of_isHit _ h
  intro rs hrs
  cases hrs

end Dot

/-! ## In a round -/

namespace Logged

variable {β γ : Type}

@[simp]
theorem value_bind (m : Logged β) (f : β → Logged γ) : (m >>= f).value = (f m.value).value := rfl

end Logged

/-- Behind the counts of an outcome are dots of the round that the curve of its text touches, each
counted once. -/
def Outcome.Backed (dots : List Dot) (o : Outcome) : Prop :=
  ∃ hits : List Dot, hits.Sublist dots ∧ (∀ d ∈ hits, d.Touches (Formula.read o.text)) ∧
    o.goodHits = hits.countP (fun d => d.kind == .good) ∧
    o.badHits = hits.countP fun d => d.kind == .bad

namespace Round

theorem exists_of_countHits {e : Formula Float} {runs : List (Run Float)}
    (sound : ∀ d : Dot, d.isHitByRuns runs = true → d.Touches e) (dots : List Dot)
    (source : RandomSource) (good bad : Nat) :
    ∃ hits : List Dot, hits.Sublist dots ∧ (∀ d ∈ hits, d.Touches e) ∧
      (countHits e runs dots source good bad).value =
        (good + hits.countP (fun d => d.kind == .good),
          bad + hits.countP fun d => d.kind == .bad) := by
  induction dots generalizing source good bad with
  | nil => exact ⟨[], .slnil, fun _ hd => (nomatch hd), rfl⟩
  | cons d ds ih =>
    have touched : (d.isHit e (some runs) source).value.1 = true → d.Touches e :=
      Dot.touches_of_isHit_some (sound d)
    simp only [countHits, Logged.value_bind]
    split
    · rename_i hit kind
      obtain ⟨hits, sub, all, counted⟩ := ih (d.isHit e (some runs) source).value.2 (good + 1) bad
      refine ⟨d :: hits, sub.cons_cons d, List.forall_mem_cons.2 ⟨touched hit, all⟩, ?_⟩
      rw [counted]
      simp [kind]
      omega
    · rename_i hit kind
      obtain ⟨hits, sub, all, counted⟩ := ih (d.isHit e (some runs) source).value.2 good (bad + 1)
      refine ⟨d :: hits, sub.cons_cons d, List.forall_mem_cons.2 ⟨touched hit, all⟩, ?_⟩
      rw [counted]
      simp [kind]
      omega
    · obtain ⟨hits, sub, all, counted⟩ := ih (d.isHit e (some runs) source).value.2 good bad
      exact ⟨hits, sub.cons d, all, counted⟩

theorem backed_of_playSlot {t : Tracer Float} {seed : UInt64} {dots : List Dot} {slot : Nat}
    {text : String} {o : Logged Outcome} (h : playSlot t seed dots slot text = some o) :
    o.value.text = text ∧ o.value.Backed dots := by
  have idle : ∀ printed runs, Outcome.Backed dots ⟨slot, text, printed, runs, 0, 0⟩ :=
    fun _ _ => ⟨[], List.nil_sublist dots, fun _ hd => (nomatch hd), rfl, rfl⟩
  unfold playSlot at h
  simp only at h
  split at h
  · obtain rfl := Option.some.inj h
    exact ⟨rfl, idle none []⟩
  · split at h
    · obtain rfl := Option.some.inj h
      exact ⟨rfl, idle none []⟩
    · obtain ⟨runs, traced, rfl⟩ := Option.map_eq_some_iff.1 h
      obtain ⟨branches, scanned, rfl⟩ := Option.map_eq_some_iff.1 traced
      obtain ⟨hits, sub, all, counted⟩ := exists_of_countHits
        (fun d => Dot.touches_of_isHitByRuns scanned) dots (slotSource seed slot) 0 0
      rw [Nat.zero_add, Nat.zero_add] at counted
      exact ⟨rfl, hits, sub, all, congrArg Prod.fst counted, congrArg Prod.snd counted⟩

/-- **A row of slots is played** when the first is, with counts that fit, and all others are. -/
theorem playSlots_cons_eq_ok_iff {t : Tracer Float} {seed : UInt64} {dots : List Dot} {slot : Nat}
    {text : String} {texts : List String} {os : Logged (List Outcome)} :
    playSlots t seed dots slot (text :: texts) = .ok os ↔
      ∃ o rest, playSlot t seed dots slot text = some o ∧ o.value.fits = true ∧
        playSlots t seed dots (slot + 1) texts = .ok rest ∧
          os = ⟨o.value :: rest.value, o.records ++ (rest.records ++ [])⟩ := by
  rw [playSlots]
  constructor
  · intro h
    split at h
    · cases h
    · rename_i o played
      split at h
      · cases h
      · rename_i fits
        split at h
        · cases h
        · rename_i rest others
          exact ⟨o, rest, played, by simpa using fits, others, (Except.ok.inj h).symm⟩
  · rintro ⟨o, rest, played, fits, others, rfl⟩
    simp only [played, fits, others, Bool.not_true, Bool.false_eq_true, if_false]
    rfl

/-- What every slot played keeps holds of all outcomes. -/
theorem forall_of_playSlots {t : Tracer Float} {seed : UInt64} {dots : List Dot}
    {texts : List String} {slot : Nat} {os : Logged (List Outcome)} {P : Outcome → Prop}
    (h : playSlots t seed dots slot texts = .ok os)
    (each : ∀ slot text o, playSlot t seed dots slot text = some o → P o.value) :
    ∀ o ∈ os.value, P o := by
  induction texts generalizing slot os with
  | nil =>
    obtain rfl := Except.ok.inj h
    exact List.forall_mem_nil _
  | cons text texts ih =>
    obtain ⟨o, rest, played, -, others, rfl⟩ := playSlots_cons_eq_ok_iff.1 h
    exact List.forall_mem_cons.2 ⟨each slot text o played, ih others⟩

theorem texts_of_playSlots {t : Tracer Float} {seed : UInt64} {dots : List Dot}
    {texts : List String} {slot : Nat} {os : Logged (List Outcome)}
    (h : playSlots t seed dots slot texts = .ok os) : os.value.map Outcome.text = texts := by
  induction texts generalizing slot os with
  | nil =>
    obtain rfl := Except.ok.inj h
    rfl
  | cons text texts ih =>
    obtain ⟨o, rest, played, -, others, rfl⟩ := playSlots_cons_eq_ok_iff.1 h
    exact List.cons_eq_cons.2 ⟨(backed_of_playSlot played).1, ih others⟩

theorem backed_of_playSlots {t : Tracer Float} {seed : UInt64} {dots : List Dot}
    {texts : List String} {slot : Nat} {os : Logged (List Outcome)}
    (h : playSlots t seed dots slot texts = .ok os) :
    os.value.map Outcome.text = texts ∧ ∀ o ∈ os.value, o.Backed dots :=
  ⟨texts_of_playSlots h, forall_of_playSlots h fun _ _ _ played => (backed_of_playSlot played).2⟩

theorem exists_of_play {settings : Settings} {r : Round} {played : Logged RoundResult}
    (h : r.play settings = .ok played) :
    ∃ t os, settings.tracer = .ok t ∧ playSlots t settings.seed r.dots 0 r.texts.toList = .ok os ∧
      played.value = ⟨os.value, scoreOf os.value⟩ := by
  unfold play at h
  split at h
  · cases h
  · rename_i t made
    split at h
    · cases h
    · rename_i os slots
      obtain rfl := Except.ok.inj h
      exact ⟨t, os, made, slots, rfl⟩

/-- Only a bad hit voids a round. -/
theorem exists_of_scoreOf_eq_void {os : List Outcome} (h : scoreOf os = -1) :
    ∃ o ∈ os, 0 < o.badHits := by
  obtain ⟨hits, member, positive⟩ := Score.total_eq_void_iff.1 h
  obtain ⟨o, ho, rfl⟩ := List.mem_map.1 member
  exact ⟨o, ho, positive⟩

theorem exists_bad_of_backed {dots : List Dot} {o : Outcome} (backed : o.Backed dots)
    (positive : 0 < o.badHits) :
    ∃ d ∈ dots, d.kind = .bad ∧ d.Touches (Formula.read o.text) := by
  obtain ⟨hits, sub, all, -, bad⟩ := backed
  rw [bad, List.countP_pos_iff] at positive
  obtain ⟨d, hd, kind⟩ := positive
  exact ⟨d, sub.subset hd, by simpa using kind, all d hd⟩

/-- **A played round** backs all its outcomes, and it is void only for a bad dot that is touched. -/
theorem backed_of_play {settings : Settings} {r : Round} {played : Logged RoundResult}
    (h : r.play settings = .ok played) :
    played.value.outcomes.map Outcome.text = r.texts.toList ∧
      (∀ o ∈ played.value.outcomes, o.Backed r.dots) ∧
      (played.value.score = -1 → ∃ text ∈ r.texts.toList, ∃ d ∈ r.dots,
        d.kind = .bad ∧ d.Touches (Formula.read text)) := by
  obtain ⟨t, os, -, slots, result⟩ := exists_of_play h
  obtain ⟨texts, backed⟩ := backed_of_playSlots slots
  rw [result]
  refine ⟨texts, backed, ?_⟩
  intro void
  obtain ⟨o, ho, positive⟩ := exists_of_scoreOf_eq_void void
  exact ⟨o.text, texts ▸ List.mem_map_of_mem ho, exists_bad_of_backed (backed o ho) positive⟩

/-- **No false hit.** A hit reported of a formula, with its traced runs, without runs or by the
search alone, has a point of its curve in the circle, whatever the random source. So the dots that
a played round counts for a slot are touched by the curve of that slot, and a void round has a slot
whose curve touches a bad dot. -/
theorem hits_are_touched :
    (∀ (d : Dot) (e : Formula Float) (source : RandomSource),
      (∀ (t : Tracer Float) (rounds : Nat) (branches : List (Branch Float)),
        t.traceFormula? e rounds = some branches →
          (d.isHit e (some (branches.map Branch.run)) source).value.1 = true → d.Touches e) ∧
      ((d.isHit e none source).value.1 = true → d.Touches e) ∧
      ((d.isHitBySearch e source).value.1 = true → d.Touches e)) ∧
    ∀ (settings : Settings) (r : Round) (played : Logged RoundResult),
      r.play settings = .ok played →
        played.value.outcomes.map Outcome.text = r.texts.toList ∧
        (∀ o ∈ played.value.outcomes, o.Backed r.dots) ∧
        (played.value.score = -1 → ∃ text ∈ r.texts.toList, ∃ d ∈ r.dots,
          d.kind = .bad ∧ d.Touches (Formula.read text)) := by
  constructor
  · intro d e source
    refine ⟨?_, Dot.touches_of_isHit_none, Dot.touches_of_isHitBySearch⟩
    intro t rounds branches traced
    exact Dot.touches_of_isHit_some (Dot.touches_of_isHitByRuns traced)
  · intro settings r played h
    exact backed_of_play h

/-- The line through the origin touches a dot there, and voids a round with a bad one. -/
theorem line_is_touched :
    Dot.Touches ⟨0.0, 0.0, .bad⟩ .var ∧
      ∃ (settings : Settings) (r : Round) (played : Logged RoundResult),
        r.play settings = .ok played ∧ played.value.score = -1 ∧
          ∃ text ∈ r.texts.toList, ∃ d ∈ r.dots,
            d.kind = .bad ∧ d.Touches (Formula.read text) := by
  refine ⟨(hits_are_touched.1 ⟨0.0, 0.0, .bad⟩ .var (.seeded 0)).2.1 (by decide +kernel), ?_⟩
  -- The window lies beside the dot, so it is the search that finds the point.
  let settings : Settings := { Settings.standard with
    window := ⟨5.0, 6.0, 1.0⟩
    sampling := { Sampling.standard with largeIncrement := 1.0 } }
  let r : Round := ⟨[⟨0.0, 0.0, .bad⟩], #v["x", "", "", "", ""]⟩
  have score : ((r.play settings).toOption.map fun p => p.value.score) = some (-1) := by
    decide +kernel
  obtain ⟨played, some_played, void⟩ := Option.map_eq_some_iff.1 score
  have played_ok : r.play settings = .ok played := by
    cases result : r.play settings with
    | error e =>
      rw [result] at some_played
      cases some_played
    | ok p =>
      rw [result] at some_played
      rw [Option.some.inj some_played]
  exact ⟨settings, r, played, played_ok, void,
    (hits_are_touched.2 settings r played played_ok).2.2 void⟩

end Round

end CurvePuzzle
