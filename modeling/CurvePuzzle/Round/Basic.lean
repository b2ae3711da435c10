import CurvePuzzle.Dot.Search
import CurvePuzzle.Formula.Reader
import CurvePuzzle.Layout
import CurvePuzzle.Score

/-!
# A round

A round has dots and five slots, each for the text of a formula. To play it is to read every text,
trace its curve, test every dot against it, and score the hits.

* `Round.playSlot` plays one slot. Slots do not depend on one another: each has a random source of
  its own, made of the seed of the game and the number of the slot. An empty slot, and one whose text
  is no formula, achieve nothing.
* `Round.play` plays all slots. It fails when the settings give no tracer, when a trace is given up,
  and when a slot has more hits of one kind than a count of 32 bits holds.
-/

set_option autoImplicit false

namespace CurvePuzzle

/-- The number of slots of a round. -/
def slotCount : Nat := 5

/-- A round: its dots, and the texts in its slots. -/
structure Round where
  dots : List Dot
  texts : Vector String slotCount

/-- What one slot achieved. -/
structure Outcome where
  slot : Nat
  text : String
  /-- The canonical text of the formula in the slot, if there is one. -/
  printed : Option (List Char)
  runs : List (Run Float)
  goodHits : Nat
  badHits : Nat

/-- The most hits of one kind that a slot can count. -/
def maxHits : Nat := Nat.pow 2 32 - 1

/-- Do the counts of an outcome fit? -/
def Outcome.fits (o : Outcome) : Bool :=
  decide (o.goodHits ≤ maxHits) && decide (o.badHits ≤ maxHits)

/-- How a round went. -/
structure RoundResult where
  outcomes : List Outcome
  score : Int

/-- There is no slot of this number. -/
structure SlotError where
  slot : Nat
  deriving DecidableEq, Repr

/-- The words for it. -/
def SlotError.message (e : SlotError) : String :=
  s!"expression slot {e.slot} out of range, a round has {slotCount} slots"

/-- Why a round cannot be played. -/
inductive PlayError where
  | tracer (error : TracerError)
  /-- The trace of the curve in this slot was given up. -/
  | endless (slot : Nat)
  /-- The hits in this slot are more than can be counted. -/
  | tooManyHits (slot : Nat)

/-- The words for it. -/
def PlayError.message : PlayError → String
  | tracer e => e.message
  | endless slot => s!"the trace of slot {slot} does not end"
  | tooManyHits _ => "attempt to add with overflow"

namespace Round

/-- A round with empty slots. -/
def ofDots (dots : List Dot) : Round := ⟨dots, Vector.replicate slotCount ""⟩

/-- The layout that settings give by their seed. -/
def layoutOf (settings : Settings) : Except LayoutError (Logged (List Dot)) :=
  match Layout.generate settings (RandomSource.seeded settings.seed) with
  | .error e => .error e
  | .ok l => .ok ⟨l.value.1, l.records⟩

/-- The round with another text in a slot. -/
def setText (r : Round) (slot : Nat) (text : String) : Except SlotError Round :=
  if h : slot < slotCount then .ok { r with texts := r.texts.set slot text h }
  else .error ⟨slot⟩

/-- How many good and bad dots a curve hits, when it has hit some already. -/
def countHits (e : Formula Float) (runs : List (Run Float)) :
    List Dot → RandomSource → Nat → Nat → Logged (Nat × Nat)
  | [], _, good, bad => pure (good, bad)
  | d :: ds, source, good, bad => do
    let (isHit, source) ← d.isHit e (some runs) source
    match isHit, d.kind with
    | true, .good => countHits e runs ds source (good + 1) bad
    | true, .bad => countHits e runs ds source good (bad + 1)
    | false, _ => countHits e runs ds source good bad

/-- The random source of a slot. -/
def slotSource (seed : UInt64) (slot : Nat) : RandomSource :=
  RandomSource.seeded (seed + UInt64.ofNat slot)

/-- What a slot achieves, unless the trace of its curve is given up. -/
def playSlot (t : Tracer Float) (seed : UInt64) (dots : List Dot) (slot : Nat) (text : String) :
    Option (Logged Outcome) :=
  let nothing : Outcome := ⟨slot, text, none, [], 0, 0⟩
  if Text.allBlank text.toList then some (pure nothing)
  else
    let reading := Formula.readLogged text
    let e := reading.value
    if e.isInvalid then some do
      let _ ← reading
      Logged.report .debug s!"slot {slot}: '{text}' is not an expression"
      return nothing
    else (t.trace e).map fun traced => do
      let e ← reading
      let runs ← traced
      let (good, bad) ← countHits e runs dots (slotSource seed slot) 0 0
      Logged.report .info s!"slot {slot}: {e.display} hits {good} good and {bad} bad dots"
      return ⟨slot, text, e.print?, runs, good, bad⟩

/-- What all slots from a number on achieve, in order. -/
def playSlots (t : Tracer Float) (seed : UInt64) (dots : List Dot) :
    Nat → List String → Except PlayError (Logged (List Outcome))
  | _, [] => .ok (pure [])
  | slot, text :: texts =>
    match playSlot t seed dots slot text with
    | none => .error (.endless slot)
    | some outcome =>
      if !outcome.value.fits then .error (.tooManyHits slot)
      else
        match playSlots t seed dots (slot + 1) texts with
        | .error e => .error e
        | .ok rest => .ok do
          let o ← outcome
          let os ← rest
          return o :: os

/-- The score of these outcomes. -/
def scoreOf (outcomes : List Outcome) : Int :=
  Score.total (outcomes.map Outcome.goodHits) (outcomes.map Outcome.badHits)

/-- Plays a round. -/
def play (settings : Settings) (r : Round) : Except PlayError (Logged RoundResult) :=
  match settings.tracer with
  | .error e => .error (.tracer e)
  | .ok t =>
    match playSlots t settings.seed r.dots 0 r.texts.toList with
    | .error e => .error e
    | .ok played => .ok do
      let outcomes ← played
      let score := scoreOf outcomes
      Logged.report .info s!"round played with {r.dots.length} dots, score {score}"
      return ⟨outcomes, score⟩

end Round

end CurvePuzzle
