import CurvePuzzle.Proofs.DotTests

/-!
# The order of dots

In every slot the dots share one random source. A dot whose test draws from it leaves another
source to the dots behind it, and what is drawn can decide whether a search finds the curve. All
other dots neither heed the source nor change it. So dots may change places as long as those that
draw keep their order, but not otherwise.

* `Search.go_of_drawn_eq`: a search that draws nothing goes the same way on every source.
* `Dot.draws`: does the test of a dot draw? `Dot.draws_eq_false_iff`: the source has no say in that.
* `Dot.answers_perm_split`: the answers to a row of dots, those that draw and the others apart.
* `Round.dot_order_is_free`: what may be reordered without effect.
* `Round.dot_order_matters`: two dots that draw, and change their answers with their places.
-/

set_option autoImplicit false

namespace CurvePuzzle

open Formula

/-! ## Searches that draw nothing -/

namespace Search

variable {f : Float → Option Float} {d : Dot}

/-- A move that is no jump pays no regard to the source. -/
theorem move_cases (d : Dot) (s : Search) (left middle right : Option Probe) :
    s.move d left middle right = s.jump d ∨
      ∀ source, ({ s with source := source } : Search).move d left middle right =
        { s.move d left middle right with source := source } := by
  rcases left with _ | l <;> rcases middle with _ | m <;> rcases right with _ | r
  · exact .inl rfl
  all_goals exact .inr fun _ => rfl

theorem drawn_le_move (d : Dot) (s : Search) (left middle right : Option Probe) :
    s.source.drawn ≤ (s.move d left middle right).source.drawn := by
  rcases move_cases d s left middle right with jump | still
  · rw [jump]
    exact Nat.le_succ _
  · exact Nat.le_of_eq (congrArg (fun s => s.source.drawn) (still s.source)).symm

/-- A search never gives words back. -/
theorem drawn_le_go (moves : Nat) (s : Search) : s.source.drawn ≤ (go f d moves s).2.drawn := by
  induction moves generalizing s with
  | zero => exact Nat.le_refl _
  | succ moves ih =>
    rw [go]
    split
    · exact Nat.le_refl _
    · simp only
      split
      · exact Nat.le_refl _
      · exact Nat.le_trans (drawn_le_move d s _ _ _) (ih _)

/-- **A search that draws nothing** goes the same way on every source. -/
theorem go_of_drawn_eq {moves : Nat} {s : Search}
    (quiet : (go f d moves s).2.drawn = s.source.drawn) (source : RandomSource) :
    go f d moves { s with source := source } = ((go f d moves s).1, source) := by
  induction moves generalizing s with
  | zero => rfl
  | succ moves ih =>
    rw [go] at quiet ⊢
    rw [go]
    simp only at quiet ⊢
    split
    · rfl
    · rename_i long
      rw [if_neg long] at quiet
      split
      · rfl
      · rename_i missed
        rw [if_neg missed] at quiet
        rcases move_cases d s (probe? f d (s.middle - s.step)) (probe? f d s.middle)
          (probe? f d (s.middle + s.step)) with jump | still
        · -- a jump draws a word, which the rest of the search does not give back
          rw [jump] at quiet
          have drawn : (s.jump d).source.drawn = s.source.drawn + 1 := rfl
          have kept := drawn_le_go (f := f) (d := d) moves (s.jump d)
          omega
        · have same := congrArg (fun s => s.source.drawn) (still s.source)
          rw [still source]
          exact ih (quiet.trans same.symm)

end Search

/-! ## Dots that draw nothing -/

namespace Dot

variable {d : Dot} {e : Formula Float} {runs : Option (List (Run Float))}

/-- **A test that draws nothing** has the same answer on every source, and leaves every source as it
is. -/
theorem value_isHit_of_drawn_eq {source : RandomSource}
    (quiet : (d.isHit e runs source).value.2.drawn = source.drawn) (other : RandomSource) :
    (d.isHit e runs other).value = ((d.isHit e runs source).value.1, other) := by
  unfold isHit isHitBySearch at quiet ⊢
  by_cases invalid : e.isInvalid = true
  · simp only [if_pos invalid]
  by_cases reached : runs.any d.isHitByRuns = true
  · simp only [if_neg invalid, if_pos reached]
  simp only [if_neg invalid, if_neg reached, searchCurve] at quiet ⊢
  rw [Search.go_of_drawn_eq (s := ⟨d.x, radius, source⟩) quiet other]

/-- Does the test of a dot draw from its source? -/
def draws (e : Formula Float) (runs : Option (List (Run Float))) (d : Dot) : Bool :=
  (d.isHit e runs (.cycle #[])).value.2.drawn != 0

/-- Whether a test draws is no matter of the source. -/
theorem draws_eq_false_iff (source : RandomSource) :
    d.draws e runs = false ↔ (d.isHit e runs source).value.2 = source := by
  constructor
  · intro quiet
    rw [value_isHit_of_drawn_eq (bne_eq_false_iff_eq.1 quiet) source]
  · intro kept
    rw [draws, value_isHit_of_drawn_eq (congrArg RandomSource.drawn kept)]
    rfl

/-- The answer to a test that draws nothing. -/
def fixedAnswer (e : Formula Float) (runs : Option (List (Run Float))) (d : Dot) : Bool :=
  (d.isHit e runs (.cycle #[])).value.1

theorem value_isHit_of_quiet (quiet : d.draws e runs = false) (source : RandomSource) :
    (d.isHit e runs source).value = (d.fixedAnswer e runs, source) :=
  value_isHit_of_drawn_eq (bne_eq_false_iff_eq.1 quiet) source

/-- A dot whose search draws nothing draws nothing whatever runs are known. -/
theorem draws_eq_false_of_search (quiet : d.draws e none = false)
    (runs : Option (List (Run Float))) : d.draws e runs = false := by
  rw [draws_eq_false_iff (.cycle #[])] at quiet ⊢
  unfold isHit at quiet ⊢
  split
  · rfl
  · rename_i valid
    rw [if_neg valid] at quiet
    split
    · rfl
    · exact quiet

/-! ## Rows of dots -/

/-- **The answers to a row of dots**: those that draw are answered as if there were no others, and the
others as if they were alone. -/
theorem answers_perm_split (ds : List Dot) (source : RandomSource) :
    (answers e runs ds source).Perm (answers e runs (ds.filter (draws e runs)) source ++
      (ds.filter fun d => !d.draws e runs).map fun d => (d, d.fixedAnswer e runs)) := by
  induction ds generalizing source with
  | nil => exact .nil
  | cons d ds ih =>
    cases drawing : d.draws e runs with
    | true =>
      simp only [List.filter_cons, drawing, if_true, Bool.not_true, Bool.false_eq_true, if_false]
      exact (ih _).cons _
    | false =>
      simp only [List.filter_cons, drawing, if_true, Bool.not_false, Bool.false_eq_true, if_false,
        answers, value_isHit_of_quiet drawing, List.map_cons]
      exact ((ih source).cons _).trans List.perm_middle.symm

/-- Dots may change places as long as those that draw keep their order. -/
theorem answers_perm {ds ds' : List Dot} (perm : ds.Perm ds')
    (order : ds.filter (draws e runs) = ds'.filter (draws e runs)) (source : RandomSource) :
    (answers e runs ds source).Perm (answers e runs ds' source) := by
  have others := (perm.filter fun d => !d.draws e runs).map fun d => (d, d.fixedAnswer e runs)
  refine (answers_perm_split ds source).trans (.trans ?_ (answers_perm_split ds' source).symm)
  rw [order]
  exact others.append_left _

end Dot

/-! ## Rounds -/

namespace Round

/-- The same round with its dots in another order, in which the dots that draw in a slot follow one
another as before. -/
structure Reordered (settings : Settings) (r r' : Round) : Prop where
  texts : r'.texts = r.texts
  dots : r.dots.Perm r'.dots
  drawing : ∀ t, settings.tracer = .ok t → ∀ text ∈ r.texts.toList, ∀ runs,
    t.trace (read text) = some runs →
      r.dots.filter (Dot.draws (read text) (some runs.value)) =
        r'.dots.filter (Dot.draws (read text) (some runs.value))

theorem tested_congr {seed : UInt64} {dots dots' : List Dot} {slot : Nat} {text : String}
    {runs : List (Run Float)}
    (perm : (Dot.answers (read text) (some runs) dots (slotSource seed slot)).Perm
      (Dot.answers (read text) (some runs) dots' (slotSource seed slot))) :
    tested seed dots slot text runs = tested seed dots' slot text runs := by
  unfold tested Dot.hits
  simp only [perm.countP_eq]

/-- A round is played with the same result when in every slot its dots get the same answers in
another order. -/
theorem exists_play_of_answers {settings : Settings} {r r' : Round} {played : Logged RoundResult}
    (texts : r'.texts = r.texts)
    (same : ∀ t, settings.tracer = .ok t → ∀ text ∈ r.texts.toList, ∀ runs,
      t.trace (read text) = some runs → ∀ source,
        (Dot.answers (read text) (some runs.value) r.dots source).Perm
          (Dot.answers (read text) (some runs.value) r'.dots source))
    (h : r.play settings = .ok played) :
    ∃ played', r'.play settings = .ok played' ∧ played'.value = played.value := by
  obtain ⟨t, os, made, slots, result⟩ := exists_of_play h
  have each : ∀ text ∈ r.texts.toList, ∀ slot o,
      playSlot t settings.seed r.dots slot text = some o →
        ∃ o', playSlot t settings.seed r'.dots slot text = some o' ∧ o'.value = o.value := by
    intro text member slot o first
    obtain ⟨o', second, ⟨idle, -⟩ | ⟨runs, traced, shown, shown'⟩⟩ :=
      exists_playSlot_with r'.dots first
    · exact ⟨o', second, idle⟩
    · refine ⟨o', second, ?_⟩
      rw [shown, shown']
      exact (tested_congr (same t made text member runs traced _)).symm
  obtain ⟨os', slots', outcomes⟩ := exists_playSlots slots each
  rw [← texts] at slots'
  obtain ⟨played', second, result'⟩ := exists_play made slots'
  exact ⟨played', second, by rw [result, result', outcomes]⟩

/-- **Which dots may change places.** Whether a test draws from the source that the dots share is no
matter of the source, and a dot whose test draws nothing has one answer. Every dot of a row gets the
same answer in another order, as long as the dots that draw keep their order among themselves; for
one such dot alone that is any order. So a reordered round is played with the same outcomes and the
same score. -/
theorem dot_order_is_free :
    (∀ (e : Formula Float) (runs : Option (List (Run Float))) (d : Dot) (source : RandomSource),
      (d.draws e runs = false ↔ (d.isHit e runs source).value.2 = source) ∧
        (d.draws e runs = false → (d.isHit e runs source).value = (d.fixedAnswer e runs, source))) ∧
    (∀ (e : Formula Float) (runs : Option (List (Run Float))) (source : RandomSource)
      (ds ds' : List Dot), ds.Perm ds' →
        ds.filter (Dot.draws e runs) = ds'.filter (Dot.draws e runs) →
          (Dot.answers e runs ds source).Perm (Dot.answers e runs ds' source)) ∧
    ∀ (settings : Settings) (r r' : Round) (played : Logged RoundResult),
      Reordered settings r r' → r.play settings = .ok played →
        ∃ played', r'.play settings = .ok played' ∧ played'.value = played.value := by
  refine ⟨?_, ?_, ?_⟩
  · intro e runs d source
    exact ⟨Dot.draws_eq_false_iff source, fun quiet => Dot.value_isHit_of_quiet quiet source⟩
  · intro e runs source ds ds' perm order
    exact Dot.answers_perm perm order source
  · intro settings r r' played same h
    refine exists_play_of_answers same.texts ?_ h
    intro t made text member runs traced source
    exact Dot.answers_perm same.dots (same.drawing t made text member runs traced) source

/-! ## A line with holes -/

/-- The line `y = 0.24` without the points at 0, -0.25 and 0.25. -/
def brokenLine : String := "0.24+0/(x*(x*x-0.0625))"

/-- Settings that show nothing of the line. -/
def blindSettings : Settings :=
  { Settings.standard with
    window := ⟨5.0, 6.0, 0.1⟩
    sampling := { Sampling.standard with largeIncrement := 1.0 }
    seed := 8 }

/-- A round of these dots with the line in its first slot. -/
def lineRound (dots : List Dot) : Round := ⟨dots, #v[brokenLine, "", "", "", ""]⟩

/-- A dot that the line crosses. The first probes of a search around it fall into the holes, so it
goes on at random. -/
def crossedDot : Dot := ⟨0.0, 0.0, .bad⟩

/-- A dot above it, too far from the line. -/
def missedDot : Dot := ⟨0.0, 0.8, .good⟩

/-- A dot whose centre lies on the line, away from the holes. -/
def plainDot : Dot := ⟨1.0, 0.24, .good⟩

/-- The plain dot may stand before the crossed one or behind it. -/
theorem dot_order_is_free_line :
    (Dot.answers (read brokenLine) none [crossedDot, plainDot] (slotSource 8 0)).Perm
        (Dot.answers (read brokenLine) none [plainDot, crossedDot] (slotSource 8 0)) ∧
      ∃ played played',
        (lineRound [crossedDot, plainDot]).play blindSettings = .ok played ∧
          (lineRound [plainDot, crossedDot]).play blindSettings = .ok played' ∧
            played'.value = played.value := by
  have perm : [crossedDot, plainDot].Perm [plainDot, crossedDot] := .swap _ _ _
  have quiet : ∀ text ∈ (lineRound [crossedDot, plainDot]).texts.toList,
      plainDot.draws (read text) none = false := by decide +kernel
  have order (text : String) (member : text ∈ (lineRound [crossedDot, plainDot]).texts.toList)
      (runs : Option (List (Run Float))) :
      [crossedDot, plainDot].filter (Dot.draws (read text) runs) =
        [plainDot, crossedDot].filter (Dot.draws (read text) runs) := by
    simp [List.filter_cons, Dot.draws_eq_false_of_search (quiet text member) runs]
  have reordered : Reordered blindSettings (lineRound [crossedDot, plainDot])
      (lineRound [plainDot, crossedDot]) :=
    ⟨rfl, perm, fun _ _ text member runs _ => order text member _⟩
  obtain ⟨played, h, -⟩ := exists_of_score blindSettings
    (lineRound [crossedDot, plainDot]) (-1) (by decide +kernel)
  obtain ⟨played', h', same⟩ := dot_order_is_free.2.2 _ _ _ _ reordered h
  exact ⟨dot_order_is_free.2.1 _ _ _ _ _ perm (order brokenLine List.mem_cons_self none), played,
    played', h, h', same⟩

/-- **The order of dots matters** when two of them draw. A dot that the line crosses is hit when it is
tested first, and missed when another dot has drawn before it; so two rounds that differ in the order
of their dots alone are void and not. -/
theorem dot_order_matters :
    (¬∀ (e : Formula Float) (runs : List (Run Float)) (source : RandomSource) (ds ds' : List Dot),
      ds.Perm ds' →
        (Dot.answers e (some runs) ds source).Perm (Dot.answers e (some runs) ds' source)) ∧
    ∃ (settings : Settings) (r r' : Round) (played played' : Logged RoundResult),
      settings.validate = .ok () ∧ r'.texts = r.texts ∧ r.dots.Perm r'.dots ∧
        r.play settings = .ok played ∧ r'.play settings = .ok played' ∧
          played.value.score = -1 ∧ played'.value.score = 0 := by
  let first := lineRound [crossedDot, missedDot]
  let second := lineRound [missedDot, crossedDot]
  have perm : first.dots.Perm second.dots := .swap _ _ _
  obtain ⟨played, h, void⟩ := exists_of_score blindSettings first (-1) (by decide +kernel)
  obtain ⟨played', h', blank⟩ := exists_of_score blindSettings second 0 (by decide +kernel)
  constructor
  · intro same
    have replayed : ∃ other, second.play blindSettings = .ok other ∧ other.value = played.value :=
      exists_play_of_answers (r := first) rfl (fun _ _ _ _ _ _ source => same _ _ source _ _ perm) h
    obtain ⟨other, again, equal⟩ := replayed
    obtain rfl := Except.ok.inj (h'.symm.trans again)
    rw [equal, void] at blank
    cases blank
  · exact ⟨blindSettings, first, second, played, played',
      Settings.validate_of_isNone (by decide +kernel), rfl, perm, h, h', void, blank⟩

end Round

end CurvePuzzle
