import Mathlib.Data.List.Forall2
import CurvePuzzle.Proofs.SlotText

/-!
# Dots are tested one after the other

A slot tests all dots of the round against its curve, in order and on one random source. What it
counts are the answers to these tests, so two plays of a slot with different dots are compared by
their answers alone.

* `Dot.answers`: the answers, dot by dot; `Dot.answers_append`: the first dots are not affected by
  those behind them.
* `Round.value_countHits`: the counts of a slot are counted answers.
* `Round.exists_playSlot_with`: what a slot achieves with some dots, and with any others.
* `Round.forall₂_of_playSlots`, `Round.exists_playSlots`: plays with different dots, slot by slot.
-/

set_option autoImplicit false

namespace CurvePuzzle

open Formula

/-! ## Answers -/

namespace Dot

variable {e : Formula Float} {runs : Option (List (Run Float))}

/-- The dots of a row, each with the answer to its test on a source that all of them share. -/
def answers (e : Formula Float) (runs : Option (List (Run Float))) :
    List Dot → RandomSource → List (Dot × Bool)
  | [], _ => []
  | d :: ds, source =>
    let tested := (d.isHit e runs source).value
    (d, tested.1) :: answers e runs ds tested.2

/-- The source that the tests of a row of dots leave. -/
def sourceAfter (e : Formula Float) (runs : Option (List (Run Float))) (ds : List Dot)
    (source : RandomSource) : RandomSource :=
  ds.foldl (fun source d => (d.isHit e runs source).value.2) source

/-- **Earlier answers do not depend on later dots.** -/
theorem answers_append (ds ds' : List Dot) (source : RandomSource) :
    answers e runs (ds ++ ds') source =
      answers e runs ds source ++ answers e runs ds' (sourceAfter e runs ds source) := by
  induction ds generalizing source with
  | nil => rfl
  | cons d ds ih => exact congrArg ((d, (d.isHit e runs source).value.1) :: ·) (ih _)

/-- How many dots of a kind are hit, by these answers. -/
def hits (kind : DotKind) (as : List (Dot × Bool)) : Nat :=
  as.countP fun a => a.2 && a.1.kind == kind

theorem hits_append (kind : DotKind) (as bs : List (Dot × Bool)) :
    hits kind (as ++ bs) = hits kind as + hits kind bs := List.countP_append

end Dot

namespace Round

/-- **The counts of a slot** are counted answers. -/
theorem value_countHits (e : Formula Float) (runs : List (Run Float)) (dots : List Dot)
    (source : RandomSource) (good bad : Nat) :
    (countHits e runs dots source good bad).value =
      (good + Dot.hits .good (Dot.answers e (some runs) dots source),
        bad + Dot.hits .bad (Dot.answers e (some runs) dots source)) := by
  induction dots generalizing source good bad with
  | nil => rfl
  | cons d ds ih =>
    simp only [countHits, Logged.value_bind, Dot.answers]
    split
    · rename_i hit kind
      rw [ih]
      simp [Dot.hits, hit, kind]
      omega
    · rename_i hit kind
      rw [ih]
      simp [Dot.hits, hit, kind]
      omega
    · rename_i hit
      rw [ih]
      simp [Dot.hits, hit]

/-! ## Slots -/

/-- What a slot achieves when its formula has these runs. -/
def tested (seed : UInt64) (dots : List Dot) (slot : Nat) (text : String)
    (runs : List (Run Float)) : Outcome :=
  let answers := Dot.answers (read text) (some runs) dots (slotSource seed slot)
  ⟨slot, text, (read text).print?, runs, Dot.hits .good answers, Dot.hits .bad answers⟩

variable {t : Tracer Float} {seed : UInt64} {dots dots' : List Dot}

/-- **A slot is played with any dots** if it is with some. Unless it achieves nothing in either play,
its dots are tested with the same runs. -/
theorem exists_playSlot_with (dots' : List Dot) {slot : Nat} {text : String} {o : Logged Outcome}
    (h : playSlot t seed dots slot text = some o) :
    ∃ o', playSlot t seed dots' slot text = some o' ∧
      ((o'.value = o.value ∧ o.value.Idle) ∨
        ∃ runs, t.trace (read text) = some runs ∧
          o.value = tested seed dots slot text runs.value ∧
            o'.value = tested seed dots' slot text runs.value) := by
  have first := value_playSlot t seed dots slot text
  have second := value_playSlot t seed dots' slot text
  rw [h, Option.map_some] at first
  split at first
  · rename_i none
    rw [if_pos none] at second
    obtain ⟨o', played, shown⟩ := Option.map_eq_some_iff.1 second
    have same := Option.some.inj first
    refine ⟨o', played, .inl ⟨shown.trans same.symm, ?_⟩⟩
    rw [same]
    exact ⟨rfl, rfl, rfl, rfl⟩
  · rename_i valid
    obtain ⟨runs, traced, shown⟩ := Option.map_eq_some_iff.1 first.symm
    rw [if_neg valid, traced] at second
    obtain ⟨o', played, shown'⟩ := Option.map_eq_some_iff.1 second
    simp only [value_countHits, Nat.zero_add] at shown shown'
    exact ⟨o', played, .inr ⟨runs, traced, shown.symm, shown'⟩⟩

/-- Two plays of the same slots with different dots, slot by slot. -/
theorem forall₂_of_playSlots {R : Outcome → Outcome → Prop} {texts : List String} {slot : Nat}
    {os os' : Logged (List Outcome)} (h : playSlots t seed dots slot texts = .ok os)
    (h' : playSlots t seed dots' slot texts = .ok os')
    (each : ∀ slot text o o', playSlot t seed dots slot text = some o →
      playSlot t seed dots' slot text = some o' → R o.value o'.value) :
    List.Forall₂ R os.value os'.value := by
  induction texts generalizing slot os os' with
  | nil =>
    obtain rfl := Except.ok.inj h
    obtain rfl := Except.ok.inj h'
    exact .nil
  | cons text texts ih =>
    obtain ⟨o, rest, played, -, others, rfl⟩ := playSlots_cons_eq_ok_iff.1 h
    obtain ⟨o', rest', played', -, others', rfl⟩ := playSlots_cons_eq_ok_iff.1 h'
    exact .cons (each slot text o o' played played') (ih others others')

/-- Slots can be played with other dots that change no outcome. -/
theorem exists_playSlots {texts : List String} {slot : Nat} {os : Logged (List Outcome)}
    (h : playSlots t seed dots slot texts = .ok os)
    (each : ∀ text ∈ texts, ∀ slot o, playSlot t seed dots slot text = some o →
      ∃ o', playSlot t seed dots' slot text = some o' ∧ o'.value = o.value) :
    ∃ os', playSlots t seed dots' slot texts = .ok os' ∧ os'.value = os.value := by
  induction texts generalizing slot os with
  | nil => exact ⟨os, h, rfl⟩
  | cons text texts ih =>
    obtain ⟨o, rest, played, fits, others, rfl⟩ := playSlots_cons_eq_ok_iff.1 h
    obtain ⟨first, each⟩ := List.forall_mem_cons.1 each
    obtain ⟨o', played', same⟩ := first slot o played
    obtain ⟨rest', others', sameRest⟩ := ih others each
    refine ⟨_, playSlots_cons_eq_ok_iff.2 ⟨o', rest', played', same ▸ fits, others', rfl⟩, ?_⟩
    simp only [same, sameRest]

/-- A round is played when its score can be computed. -/
theorem exists_of_score (settings : Settings) (r : Round) (score : Int)
    (h : ((r.play settings).toOption.map fun played => played.value.score) = some score) :
    ∃ played, r.play settings = .ok played ∧ played.value.score = score := by
  obtain ⟨played, ok, rfl⟩ := Option.map_eq_some_iff.1 h
  cases result : r.play settings with
  | error e =>
    rw [result] at ok
    cases ok
  | ok p =>
    rw [result] at ok
    exact ⟨played, congrArg Except.ok (Option.some.inj ok), rfl⟩

end Round

end CurvePuzzle
