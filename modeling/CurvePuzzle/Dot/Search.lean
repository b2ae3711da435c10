import CurvePuzzle.Journal
import CurvePuzzle.Decimal.Text
import CurvePuzzle.Dot.Basic
import CurvePuzzle.Formula.Evaluation
import CurvePuzzle.Random.Source

/-!
# The search around a dot

Where tracing may step over a steep branch, the curve is searched around the dot itself. Three
probes, at the middle and one step to either side, are measured against the centre; the search moves
towards the side that gets nearer and makes its step smaller. It jumps to a random place when no
probe has a value.

* `Search.move` is one move, by which of the probes have values.
* `Dot.search` makes at most `maxMoves` moves; its `SearchOutcome` says how it ended.
* `Dot.isHit` asks the traced runs first, if there are any, and then searches.
-/

set_option autoImplicit false

namespace CurvePuzzle

/-- A search under way. -/
structure Search where
  middle : Float
  step : Float
  source : RandomSource

/-- A place where the curve has a value, with its squared distance from the centre of the dot. -/
structure Probe where
  x : Float
  distance : Float

/-- How a search ends. -/
inductive SearchOutcome where
  /-- A point of the curve lies in the circle. -/
  | found
  /-- The step has become too small after this many moves. -/
  | stopped (moves : Nat)
  /-- All moves are used up. -/
  | exhausted
  deriving DecidableEq, Repr

namespace Search

/-- The most moves of a search. -/
def maxMoves : Nat := 10000

/-- The step below which a search stops. -/
def minStep : Float := 1e-6

/-- From this squared distance on the step shrinks by a fixed ratio. -/
def farDistance : Float := 10.0

/-- The ratio by which the step shrinks far from the dot. -/
def decay : Float := 0.75

/-- How much of the step is moved when one of the probes has no value. -/
def damping : Float := 0.8

/-- The part of the radius within which random jumps land. -/
def spread : Float := 0.75 * Dot.radius

/-- The probe of a curve at `x`. -/
def probe? (f : Float → Option Float) (d : Dot) (x : Float) : Option Probe :=
  match f x with
  | some y => if y.isFinite then some ⟨x, d.distanceSquared x y⟩ else none
  | none => none

/-- Does the probe lie in the circle? -/
def reaches (p : Option Probe) : Bool :=
  p.any fun p => decide (p.distance ≤ Dot.radius * Dot.radius)

/-- The move when all probes have values: a step to the nearer side, and a smaller step. -/
def moveFull (s : Search) (left right : Float) : Search :=
  let isLeft := decide (left < right)
  let side := if isLeft then left else right
  { s with
    middle := if isLeft then s.middle - s.step else s.middle + s.step
    step := if side < farDistance then s.step * (side / farDistance) else s.step * decay }

/-- The move when one probe has no value: a damped step, and half the step. -/
def moveDamped (s : Search) (isLeft : Bool) : Search :=
  { s with
    middle := if isLeft then s.middle - damping * s.step else s.middle + damping * s.step
    step := s.step * 0.5 }

/-- The move when no probe has a value: a jump to a random place near the centre. -/
def jump (d : Dot) (s : Search) : Search :=
  let (offset, source) := s.source.uniform (-spread) spread
  { s with middle := d.x + offset, source := source }

/-- One move, by the probes to the left, in the middle and to the right. -/
def move (d : Dot) (s : Search) : Option Probe → Option Probe → Option Probe → Search
  | some l, some _, some r => s.moveFull l.distance r.distance
  | some l, none, some r => s.moveDamped (decide (l.distance < r.distance))
  | some _, some _, none => s.moveDamped true
  | none, some _, some _ => s.moveDamped false
  | some p, none, none => { s with middle := p.x }
  | none, some p, none => { s with middle := p.x }
  | none, none, some p => { s with middle := p.x }
  | none, none, none => s.jump d

/-- A search that may make `moves` more moves. -/
def go (f : Float → Option Float) (d : Dot) : Nat → Search → SearchOutcome × RandomSource
  | 0, s => (.exhausted, s.source)
  | moves + 1, s =>
    if s.step < minStep then (.stopped (maxMoves - (moves + 1)), s.source)
    else
      let left := probe? f d (s.middle - s.step)
      let middle := probe? f d s.middle
      let right := probe? f d (s.middle + s.step)
      if reaches left || reaches middle || reaches right then (.found, s.source)
      else go f d moves (s.move d left middle right)

end Search

namespace Dot

/-- Searches the curve of a function around a dot. -/
def searchCurve (d : Dot) (f : Float → Option Float) (source : RandomSource) :
    SearchOutcome × RandomSource :=
  Search.go f d Search.maxMoves ⟨d.x, radius, source⟩

/-- The record made when a search ends. -/
def searchRecords (d : Dot) : SearchOutcome → List Record
  | .stopped moves =>
    [⟨.trace, "search around (" ++ Decimal.plainText d.x ++ ", " ++ Decimal.plainText d.y ++
      s!") stopped after {moves} iterations"⟩]
  | _ => []

/-- Does a search find a point of the curve in the circle? An invalid formula has no curve. -/
def isHitBySearch (d : Dot) (e : Formula Float) (source : RandomSource) :
    Logged (Bool × RandomSource) :=
  if e.isInvalid then ⟨(false, source), []⟩
  else
    let (outcome, source) := d.searchCurve (fun x => e.eval? x) source
    ⟨(outcome == .found, source), d.searchRecords outcome⟩

/-- Does the curve of a formula pass through the circle, as far as its runs, if they are known, and
a search can tell? -/
def isHit (d : Dot) (e : Formula Float) (runs : Option (List (Run Float)))
    (source : RandomSource) : Logged (Bool × RandomSource) :=
  if e.isInvalid then ⟨(false, source), []⟩
  else if runs.any d.isHitByRuns then ⟨(true, source), []⟩
  else d.isHitBySearch e source

end Dot

end CurvePuzzle
