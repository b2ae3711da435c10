import CurvePuzzle.Proofs.DotTests
import CurvePuzzle.Proofs.ScoreSum

/-!
# One more dot

A dot put behind the others is tested last in every slot, on a source that the others leave. So it
adds at most one hit to each slot and changes nothing else there. What that does to the score is a
matter of its kind: one more good dot never lowers it, and one more bad dot leaves it or voids the
round.

* `Score.total_of_more_bad`: what further bad hits do to the score; good ones never lower it
  (`Score.total_mono`).
* `Outcome.GrownBy`, `Round.grown_of_playSlot`: what one more dot does to a slot.
* `Round.added_dot_is_conservative`: the two plays compared.
-/

set_option autoImplicit false

namespace CurvePuzzle

/-! ## Scores -/

namespace Score

/-- A slot with bad hits keeps them. -/
theorem any_positive_mono {bad bad' : List Nat} (more : List.Forall₂ (· ≤ ·) bad bad')
    (void : (bad.any fun hits => decide (0 < hits)) = true) :
    (bad'.any fun hits => decide (0 < hits)) = true := by
  induction more with
  | nil => exact void
  | cons first _ ih =>
    simp only [List.any_cons, Bool.or_eq_true, decide_eq_true_eq] at void ⊢
    exact void.imp (fun positive => Nat.lt_of_lt_of_le positive first) ih

/-- **Bad hits** leave the score, or void the round. -/
theorem total_of_more_bad {bad bad' : List Nat} (more : List.Forall₂ (· ≤ ·) bad bad')
    (good : List Nat) : total good bad' = total good bad ∨ total good bad' = void := by
  unfold total
  split
  · exact .inr rfl
  · rename_i harmless
    exact .inl (if_neg (mt (any_positive_mono more) harmless)).symm

end Score

/-! ## Slots -/

/-- The outcome of a slot with one more dot of this kind: at most one more hit, of that kind, and
nothing else. -/
structure Outcome.GrownBy (kind : DotKind) (o o' : Outcome) : Prop where
  slot : o'.slot = o.slot
  text : o'.text = o.text
  printed : o'.printed = o.printed
  runs : o'.runs = o.runs
  goodHits : o'.goodHits = o.goodHits ∨ (kind = .good ∧ o'.goodHits = o.goodHits + 1)
  badHits : o'.badHits = o.badHits ∨ (kind = .bad ∧ o'.badHits = o.badHits + 1)

namespace Outcome.GrownBy

variable {kind : DotKind} {o o' : Outcome}

theorem refl (kind : DotKind) (o : Outcome) : o.GrownBy kind o :=
  ⟨rfl, rfl, rfl, rfl, .inl rfl, .inl rfl⟩

theorem goodHits_le (h : o.GrownBy kind o') : o.goodHits ≤ o'.goodHits := by
  obtain same | ⟨-, more⟩ := h.goodHits <;> omega

theorem badHits_le (h : o.GrownBy kind o') : o.badHits ≤ o'.badHits := by
  obtain same | ⟨-, more⟩ := h.badHits <;> omega

theorem goodHits_eq (h : o.GrownBy .bad o') : o.goodHits = o'.goodHits :=
  h.goodHits.elim Eq.symm fun more => nomatch more.1

theorem badHits_eq (h : o.GrownBy .good o') : o.badHits = o'.badHits :=
  h.badHits.elim Eq.symm fun more => nomatch more.1

end Outcome.GrownBy

/-- One answer counts once, for the kind of its dot, or not at all. -/
theorem Dot.hits_append_single (kind : DotKind) (as : List (Dot × Bool)) (a : Dot × Bool) :
    hits kind (as ++ [a]) = hits kind as ∨
      (a.1.kind = kind ∧ hits kind (as ++ [a]) = hits kind as + 1) := by
  rw [hits_append]
  by_cases counted : (a.2 && a.1.kind == kind) = true
  · have same : a.1.kind = kind := by simpa using (Bool.and_eq_true_iff.1 counted).2
    exact .inr ⟨same, by simp [hits, counted]⟩
  · exact .inl (by simp [hits, counted])

namespace Round

variable {t : Tracer Float} {seed : UInt64} {dots : List Dot} {d : Dot}

theorem grown_of_tested (seed : UInt64) (dots : List Dot) (d : Dot) (slot : Nat) (text : String)
    (runs : List (Run Float)) :
    (tested seed dots slot text runs).GrownBy d.kind
      (tested seed (dots ++ [d]) slot text runs) := by
  refine ⟨rfl, rfl, rfl, rfl, ?_, ?_⟩
  · simp only [tested, Dot.answers_append]
    exact Dot.hits_append_single .good _ _
  · simp only [tested, Dot.answers_append]
    exact Dot.hits_append_single .bad _ _

/-- **What one more dot does to a slot.** -/
theorem grown_of_playSlot {slot : Nat} {text : String} {o o' : Logged Outcome}
    (h : playSlot t seed dots slot text = some o)
    (h' : playSlot t seed (dots ++ [d]) slot text = some o') :
    o.value.GrownBy d.kind o'.value := by
  obtain ⟨other, again, either⟩ := exists_playSlot_with (dots ++ [d]) h
  obtain rfl := Option.some.inj (h'.symm.trans again)
  rcases either with ⟨same, -⟩ | ⟨runs, -, shown, shown'⟩
  · rw [same]
    exact .refl _ _
  · rw [shown, shown']
    exact grown_of_tested seed dots d slot text runs.value

/-! ## Rounds -/

variable {os os' : List Outcome} {kind : DotKind}

/-- What one more dot does to a count of every slot, it does to the list of these counts. -/
theorem counts_of_grown {R : Nat → Nat → Prop} {count : Outcome → Nat}
    (grown : List.Forall₂ (Outcome.GrownBy kind) os os')
    (each : ∀ {o o' : Outcome}, o.GrownBy kind o' → R (count o) (count o')) :
    List.Forall₂ R (os.map count) (os'.map count) :=
  List.forall₂_map_left_iff.2 (List.forall₂_map_right_iff.2 (grown.imp fun _ _ => each))

theorem scoreOf_of_grown_good (grown : List.Forall₂ (Outcome.GrownBy .good) os os') :
    scoreOf os ≤ scoreOf os' := by
  have bad := counts_of_grown grown Outcome.GrownBy.badHits_eq
  rw [List.forall₂_eq_eq_eq] at bad
  rw [scoreOf, scoreOf, bad]
  have good := counts_of_grown grown Outcome.GrownBy.goodHits_le
  exact Score.total_mono (List.sublistForall₂_iff.2 ⟨_, good, .refl _⟩) _

theorem scoreOf_of_grown_bad (grown : List.Forall₂ (Outcome.GrownBy .bad) os os') :
    scoreOf os' = scoreOf os ∨ scoreOf os' = -1 := by
  have good := counts_of_grown grown Outcome.GrownBy.goodHits_eq
  rw [List.forall₂_eq_eq_eq] at good
  rw [scoreOf, scoreOf, good]
  exact Score.total_of_more_bad (counts_of_grown grown Outcome.GrownBy.badHits_le) _

/-- **One more dot** behind the others. When a round is played without and with it, every slot keeps
its canonical text and its runs, and no count changes but that of hits on dots of its kind, by one
at most. A good dot never lowers the score; a bad one leaves it or voids the round. -/
theorem added_dot_is_conservative {settings : Settings} {r : Round} {d : Dot}
    {played played' : Logged RoundResult} (h : r.play settings = .ok played)
    (h' : ({ r with dots := r.dots ++ [d] } : Round).play settings = .ok played') :
    List.Forall₂ (Outcome.GrownBy d.kind) played.value.outcomes played'.value.outcomes ∧
      (d.kind = .good → played.value.score ≤ played'.value.score) ∧
      (d.kind = .bad →
        played'.value.score = played.value.score ∨ played'.value.score = -1) := by
  obtain ⟨t, os, made, slots, result⟩ := exists_of_play h
  obtain ⟨t', os', made', slots', result'⟩ := exists_of_play h'
  obtain rfl := Except.ok.inj (made.symm.trans made')
  have grown : List.Forall₂ (Outcome.GrownBy d.kind) os.value os'.value :=
    forall₂_of_playSlots slots slots' fun _ _ _ _ => grown_of_playSlot
  rw [result, result']
  refine ⟨grown, fun good => ?_, fun bad => ?_⟩
  · rw [good] at grown
    exact scoreOf_of_grown_good grown
  · rw [bad] at grown
    exact scoreOf_of_grown_bad grown

/-- On the line through the origin a second good dot raises the score, and a bad one voids the
round. -/
theorem added_dot_on_the_line :
    ∃ (settings : Settings) (r : Round) (played more void : Logged RoundResult),
      r.play settings = .ok played ∧
        ({ r with dots := r.dots ++ [⟨1.0, 1.0, .good⟩] } : Round).play settings = .ok more ∧
        ({ r with dots := r.dots ++ [⟨1.0, 1.0, .bad⟩] } : Round).play settings = .ok void ∧
        played.value.score = 1 ∧ more.value.score = 3 ∧ void.value.score = -1 ∧
        List.Forall₂ (Outcome.GrownBy .good) played.value.outcomes more.value.outcomes ∧
        played.value.score ≤ more.value.score ∧
        List.Forall₂ (Outcome.GrownBy .bad) played.value.outcomes void.value.outcomes ∧
        (void.value.score = played.value.score ∨ void.value.score = -1) := by
  let settings : Settings := { Settings.standard with
    window := ⟨5.0, 6.0, 1.0⟩
    sampling := { Sampling.standard with largeIncrement := 1.0 } }
  let r : Round := ⟨[⟨0.0, 0.0, .good⟩], #v["x", "", "", "", ""]⟩
  obtain ⟨played, h, score⟩ := exists_of_score settings r 1 (by decide +kernel)
  obtain ⟨more, h', score'⟩ := exists_of_score settings
    { r with dots := r.dots ++ [⟨1.0, 1.0, .good⟩] } 3 (by decide +kernel)
  obtain ⟨void, h'', score''⟩ := exists_of_score settings
    { r with dots := r.dots ++ [⟨1.0, 1.0, .bad⟩] } (-1) (by decide +kernel)
  have good := added_dot_is_conservative h h'
  have bad := added_dot_is_conservative h h''
  exact ⟨settings, r, played, more, void, h, h', h'', score, score', score'', good.1, good.2.1 rfl,
    bad.1, bad.2.2 rfl⟩

end Round

end CurvePuzzle
