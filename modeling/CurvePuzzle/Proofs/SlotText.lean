import CurvePuzzle.Proofs.Hits
import CurvePuzzle.Proofs.ReadTrees
import CurvePuzzle.Proofs.TracedRuns

/-!
# Slots without a canonical text

A slot whose text is no formula achieves nothing, and shows no canonical text. The converse fails:
a numeral too large for a float is read as an infinite constant, which is evaluated but not printed,
so a slot can hit dots and still be shown like one that is empty or unreadable.

* `Outcome.Idle`: an outcome that achieves nothing and shows nothing.
* `Round.value_playSlot`, `Round.outcome_cases`: what a slot achieves and shows, by what its text is
  read as.
* `Round.unprinted_slot_iff`: when a slot shows no canonical text, and when it is idle.
* `Round.unprinted_slot_hits`: a slot without canonical text that hits a dot.
-/

set_option autoImplicit false

namespace CurvePuzzle

open Formula

/-- Nothing achieved, and nothing shown. -/
structure Outcome.Idle (o : Outcome) : Prop where
  printed : o.printed = none
  runs : o.runs = []
  goodHits : o.goodHits = 0
  badHits : o.badHits = 0

/-- A blank text is no formula. -/
theorem Formula.read_of_allBlank {text : String} (h : Text.allBlank text.toList = true) :
    read text = invalid := by
  by_contra valid
  obtain ⟨p, derived⟩ := isExpression_of_read valid
  refine p.text_ne_nil (derived.trans ?_)
  rw [Reading.squeeze, List.filter_eq_nil_iff]
  intro c hc
  simpa using List.all_eq_true.1 h c hc

theorem Formula.isInvalid_iff {α : Type} {e : Formula α} : e.isInvalid = true ↔ e = invalid := by
  cases e <;> simp [isInvalid]

namespace Round

/-- **What a slot achieves**: nothing, unless its text is a formula; and then what the trace of that
formula and the tests of the dots make of it. -/
theorem value_playSlot (t : Tracer Float) (seed : UInt64) (dots : List Dot) (slot : Nat)
    (text : String) :
    (playSlot t seed dots slot text).map Logged.value =
      if (read text).isInvalid then some ⟨slot, text, none, [], 0, 0⟩
      else (t.trace (read text)).map fun runs =>
        let counts := (countHits (read text) runs.value dots (slotSource seed slot) 0 0).value
        ⟨slot, text, (read text).print?, runs.value, counts.1, counts.2⟩ := by
  have same : (readLogged text).value = read text := rfl
  unfold playSlot
  simp only [same]
  split
  · rename_i blank
    rw [if_pos (isInvalid_iff.2 (read_of_allBlank blank))]
    rfl
  · split
    · rfl
    · rw [Option.map_map]
      rfl

/-- **What a slot shows** is decided by its text alone: nothing at all, or the canonical text of the
formula read, if that has one. -/
theorem outcome_cases {t : Tracer Float} {seed : UInt64} {dots : List Dot} {slot : Nat}
    {text : String} {o : Logged Outcome} (h : playSlot t seed dots slot text = some o) :
    (read o.value.text = invalid ∧ o.value.Idle) ∨
      (read o.value.text ≠ invalid ∧ o.value.printed = (read o.value.text).print?) := by
  have outcome := value_playSlot t seed dots slot text
  rw [h, Option.map_some] at outcome
  split at outcome
  · rename_i none
    rw [Option.some.inj outcome]
    exact .inl ⟨isInvalid_iff.1 none, rfl, rfl, rfl, rfl⟩
  · rename_i valid
    obtain ⟨runs, -, shown⟩ := Option.map_eq_some_iff.1 outcome.symm
    rw [← shown]
    exact .inr ⟨mt isInvalid_iff.2 valid, rfl⟩

/-- A slot whose text is a formula that can be traced is played with that formula. -/
theorem exists_playSlot {t : Tracer Float} {text : String} {runs : Logged (List (Run Float))}
    (valid : read text ≠ invalid) (traced : t.trace (read text) = some runs) (seed : UInt64)
    (dots : List Dot) (slot : Nat) :
    ∃ o, playSlot t seed dots slot text = some o ∧ o.value.text = text ∧
      o.value.printed = (read text).print? ∧ o.value.runs = runs.value ∧
      (o.value.goodHits, o.value.badHits) =
        (countHits (read text) runs.value dots (slotSource seed slot) 0 0).value := by
  have outcome := value_playSlot t seed dots slot text
  rw [if_neg (mt isInvalid_iff.1 valid), traced, Option.map_some] at outcome
  obtain ⟨o, played, shown⟩ := Option.map_eq_some_iff.1 outcome
  refine ⟨o, played, ?_⟩
  rw [shown]
  exact ⟨rfl, rfl, rfl, rfl⟩

/-- A round is played when all its slots are. -/
theorem exists_play {settings : Settings} {r : Round} {t : Tracer Float}
    {os : Logged (List Outcome)} (made : settings.tracer = .ok t)
    (slots : playSlots t settings.seed r.dots 0 r.texts.toList = .ok os) :
    ∃ played, r.play settings = .ok played ∧ played.value = ⟨os.value, scoreOf os.value⟩ := by
  unfold play
  simp only [made, slots]
  exact ⟨_, rfl, rfl⟩

/-- A digit again and again. -/
def repdigit (c : Char) (digit : c.isDigit = true) (n : Nat) : Numeral where
  whole := List.replicate (n + 1) c
  fraction := none
  whole_digits := by
    intro d hd
    rw [List.eq_of_mem_replicate hd]
    exact digit
  fraction_digits := List.forall_mem_nil _
  some_digit := .inl (List.cons_ne_nil _ _)

/-- `x + 1/9…9`, with a divisor of 310 digits. -/
def hugeDivisor : Phrase .expression :=
  .expression [] (.term (.base (.var false)) .noFactor)
    (.nextTerm .direct []
      (.term (.base (.numeral (repdigit '1' rfl 0)))
        (.nextFactor .inverse [] (.base (.numeral (repdigit '9' rfl 309))) .noFactor))
      .noTerm)

theorem read_hugeDivisor : read (String.ofList hugeDivisor.text) = hugeDivisor.tree :=
  read_of_text (squeeze_text hugeDivisor).symm

/-- The divisor is read as infinite, so the curve is the line through the origin. The window lies
beside the dot there, and it is the search that finds the point. -/
theorem exists_play_hugeDivisor :
    ∃ (settings : Settings) (r : Round) (played : Logged RoundResult),
      settings.validate = .ok () ∧ r.play settings = .ok played ∧
        ∃ o ∈ played.value.outcomes, read o.text ≠ invalid ∧ o.printed = none ∧ o.goodHits = 1 := by
  let settings : Settings := { Settings.standard with
    window := ⟨5.0, 6.0, 1.0⟩
    sampling := { Sampling.standard with largeIncrement := 1.0 } }
  let text := String.ofList hugeDivisor.text
  let dots : List Dot := [⟨0.0, 0.0, .good⟩]
  let r : Round := ⟨dots, #v[text, "", "", "", ""]⟩
  let t : Tracer Float := ⟨settings.window, settings.sampling⟩
  have valid : settings.validate = .ok () := Settings.validate_of_isNone (by decide +kernel)
  have formula : read text ≠ invalid := by
    rw [read_hugeDivisor]
    exact ne_invalid_of_parse? hugeDivisor.reads
  have untraced : (t.traceFormula? hugeDivisor.tree stepLimit).map List.isEmpty = some true := by
    decide +kernel
  obtain ⟨branches, traced, empty⟩ := Option.map_eq_some_iff.1 untraced
  obtain rfl := List.isEmpty_iff.1 empty
  have runs : t.trace (read text) = some ⟨[], Tracer.records hugeDivisor.tree []⟩ := by
    rw [read_hugeDivisor, Tracer.trace, traced]
    rfl
  have hits : (countHits hugeDivisor.tree [] dots (slotSource settings.seed 0) 0 0).value =
      (1, 0) := by decide +kernel
  have unprinted : hugeDivisor.tree.print? = none := Option.isNone_iff_eq_none.1 (by decide +kernel)
  obtain ⟨o, first, same, printed, -, counted⟩ := exists_playSlot formula runs settings.seed dots 0
  rw [read_hugeDivisor] at printed counted
  obtain ⟨rest, others⟩ : ∃ rest, playSlots t settings.seed dots 1 ["", "", "", ""] = .ok rest :=
    ⟨_, rfl⟩
  have fits : o.value.fits = true := by
    obtain ⟨good, bad⟩ := Prod.mk.inj (counted.trans hits)
    rw [Outcome.fits, good, bad]
    decide
  obtain ⟨os, slots, outcomes⟩ : ∃ os, playSlots t settings.seed r.dots 0 r.texts.toList = .ok os ∧
      os.value = o.value :: rest.value :=
    ⟨_, playSlots_cons_eq_ok_iff.2 ⟨o, rest, first, fits, others, rfl⟩, rfl⟩
  obtain ⟨played, play, result⟩ := exists_play (Settings.tracer_of_validate valid) slots
  refine ⟨settings, r, played, valid, play, o.value, ?_, same ▸ formula, printed.trans unprinted,
    congrArg Prod.fst (counted.trans hits)⟩
  rw [result, outcomes]
  exact List.mem_cons_self

/-- **When a slot shows no canonical text.** A slot whose text is no formula shows none and is idle.
Any other shows none just when its formula has a constant that is not finite. -/
theorem unprinted_slot_iff {settings : Settings} {r : Round} {played : Logged RoundResult}
    (h : r.play settings = .ok played) :
    ∀ o ∈ played.value.outcomes,
      (read o.text = invalid → o.Idle) ∧
        (read o.text ≠ invalid →
          (o.printed = none ↔ ∃ c ∈ (read o.text).constants, c.isFinite = false)) := by
  obtain ⟨t, os, -, slots, result⟩ := exists_of_play h
  rw [result]
  intro o ho
  have either := forall_of_playSlots (P := fun o => (read o.text = invalid ∧ o.Idle) ∨
    (read o.text ≠ invalid ∧ o.printed = (read o.text).print?)) slots fun _ _ _ => outcome_cases
  rcases either o ho with ⟨unreadable, idle⟩ | ⟨valid, printed⟩
  · exact ⟨fun _ => idle, fun valid => absurd unreadable valid⟩
  · refine ⟨fun unreadable => absurd unreadable valid, fun _ => ?_⟩
    rw [printed]
    exact (regular_of_read valid).print?_eq_none_iff

/-- The formula of a slot with a huge divisor has a constant that is not finite. -/
theorem hugeDivisor_is_infinite :
    ∃ (settings : Settings) (r : Round) (played : Logged RoundResult),
      r.play settings = .ok played ∧
        ∃ o ∈ played.value.outcomes, ∃ c ∈ (read o.text).constants, c.isFinite = false := by
  obtain ⟨settings, r, played, -, play, o, ho, formula, printed, -⟩ := exists_play_hugeDivisor
  exact ⟨settings, r, played, play, o, ho, ((unprinted_slot_iff play o ho).2 formula).1 printed⟩

/-- **A slot without canonical text can hit a dot.** -/
theorem unprinted_slot_hits :
    ∃ (settings : Settings) (r : Round) (played : Logged RoundResult),
      settings.validate = .ok () ∧ r.play settings = .ok played ∧
        ∃ o ∈ played.value.outcomes, o.printed = none ∧ 0 < o.goodHits := by
  obtain ⟨settings, r, played, valid, play, o, ho, -, printed, hit⟩ := exists_play_hugeDivisor
  exact ⟨settings, r, played, valid, play, o, ho, printed, by omega⟩

end Round

end CurvePuzzle
