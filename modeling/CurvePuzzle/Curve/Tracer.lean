import CurvePuzzle.Loop
import CurvePuzzle.Journal
import CurvePuzzle.Decimal.Text
import CurvePuzzle.Curve.Run
import CurvePuzzle.Formula.Evaluation
import CurvePuzzle.Formula.Printer

/-!
# Tracing a curve

A tracer samples a partial function over a window into branches. It scans the window with a coarse
step until the function has a value there; from this seed it walks in both directions with a step
that adapts to the curve, and goes on scanning behind the branch it found.

* `Walk.advance?` is one step of a walk: a point that lies too far away, or a place without a value,
  halves the step; a point that lies too near doubles it. The walk is over at the edge of the
  window, at its limit of points, where the function ends, and at a jump.
* `Tracer.scan?` is the coarse scan. Neither need end when the numbers are rounded, so both count
  their rounds: `Tracer.trace?` answers none when the given number of rounds does not suffice.
* `Tracer.trace` traces a formula with `stepLimit` rounds and makes the records of it.
-/

set_option autoImplicit false

namespace CurvePuzzle

/-- The part of the plane that is traced: `xStart ≤ x ≤ xEnd` and `|y| ≤ yLimit`. -/
structure Window (α : Type) where
  xStart : α
  xEnd : α
  yLimit : α
  deriving DecidableEq, Repr

/-- How densely curves are sampled. -/
structure Sampling (α : Type) where
  /-- The step of the coarse scan. -/
  largeIncrement : α
  /-- The first step of a walk. -/
  smallIncrement : α
  /-- Neighbours nearer than this, squared, make the step grow. -/
  minDistanceSquared : α
  /-- Neighbours farther than this, squared, make the step shrink. -/
  maxDistanceSquared : α
  /-- Below this step a point too far away is a jump. -/
  minStep : α
  /-- The most points of one walk. -/
  maxPoints : Nat
  deriving DecidableEq, Repr

/-- The sampling used unless settings say otherwise. -/
def Sampling.standard : Sampling Float :=
  { largeIncrement := 0.1
    smallIncrement := 0.001
    minDistanceSquared := 0.0004
    maxDistanceSquared := 0.01
    minStep := 1e-9
    maxPoints := 200000 }

/-- A window, and how it is sampled. -/
structure Tracer (α : Type) where
  window : Window α
  sampling : Sampling α

/-- Why there is no tracer. -/
inductive TracerError where
  | emptyWindow (xStart xEnd : Float)
  | increments

/-- The words for it. -/
def TracerError.message : TracerError → String
  | emptyWindow xStart xEnd =>
    "tracing window must be non-empty: x_start = " ++ Decimal.plainText xStart ++
      ", x_end = " ++ Decimal.plainText xEnd
  | increments => "tracer increments must be positive"

/-- The tracer of a window that is not empty, with positive increments. -/
def Tracer.make? (window : Window Float) (sampling : Sampling Float) :
    Except TracerError (Tracer Float) :=
  if !(window.xStart < window.xEnd) then .error (.emptyWindow window.xStart window.xEnd)
  else if !(0 < sampling.largeIncrement && 0 < sampling.smallIncrement) then .error .increments
  else .ok ⟨window, sampling⟩

/-- The two ways to walk from a seed. -/
inductive Direction where
  | backward
  | forward
  deriving DecidableEq, Repr

/-- The number by which the step of a walk is multiplied. -/
def Direction.unit {α : Type} [Scalar α] : Direction → α
  | backward => -1.0
  | forward => 1.0

/-- A walk under way: the point it has reached, its step, the number of points it may still store,
and the points it has stored, farthest from the seed first. -/
structure Walk (α : Type) where
  previous : Point α
  step : α
  room : Nat
  points : List (Point α)

/-- A branch: the seed at which it was found, and its points. -/
structure Branch (α : Type) where
  seed : Point α
  run : Run α

namespace Branch

variable {α : Type}

/-- The largest `x` of a branch. -/
def lastX (b : Branch α) : α := (b.run.points.back?.map Point.x).getD b.seed.x

end Branch

namespace Tracer

variable {α : Type} [Scalar α] [DecidableLT α] [DecidableLE α]

/-- The point of the curve at `x`, if the function has a value there within the window. -/
def sample? (t : Tracer α) (f : α → Option α) (x : α) : Option (Point α) :=
  match f x with
  | some y =>
    if Scalar.isFinite y && decide (Scalar.abs y ≤ t.window.yLimit) then some ⟨x, y⟩ else none
  | none => none

/-- The edge of the window that a walk approaches. -/
def boundary (t : Tracer α) : Direction → α
  | .backward => t.window.xStart
  | .forward => t.window.xEnd

/-- The place at which a walk looks next: one step on, but not beyond the edge of the window. -/
def target (t : Tracer α) (d : Direction) (w : Walk α) : α :=
  let x := w.previous.x + d.unit * w.step
  match d with
  | .backward => if x < t.window.xStart then t.window.xStart else x
  | .forward => if t.window.xEnd < x then t.window.xEnd else x

end Tracer

namespace Walk

variable {α : Type} [Scalar α] [DecidableLT α] [DecidableLE α]

/-- The walk at its seed. -/
def start (t : Tracer α) (seed : Point α) : Walk α :=
  ⟨seed, t.sampling.smallIncrement, t.sampling.maxPoints, []⟩

/-- The walk with half the way to `x` as its step. -/
def shorten (w : Walk α) (x : α) : Walk α :=
  { w with step := Scalar.abs (x - w.previous.x) / (2.0 : α) }

/-- The walk moved on to a point at this squared distance. -/
def move (t : Tracer α) (w : Walk α) (p : Point α) (distance : α) : Walk α :=
  { previous := p
    step := if distance < t.sampling.minDistanceSquared then w.step * (2.0 : α) else w.step
    room := w.room - 1
    points := p :: w.points }

/-- Is the walk over whatever comes next, at its limit of points or at the edge of the window? -/
def isComplete (t : Tracer α) (d : Direction) (w : Walk α) : Bool :=
  w.room == 0 || w.previous.x == t.boundary d

/-- One step of a walk along `f`; none when the walk is over. -/
def advance? (t : Tracer α) (f : α → Option α) (d : Direction) (w : Walk α) : Option (Walk α) :=
  if w.isComplete t d then none
  else
    let x := t.target d w
    match t.sample? f x with
    | none => if t.sampling.smallIncrement < w.step then some (w.shorten x) else none
    | some p =>
      let distance := p.distanceSquared w.previous
      if t.sampling.maxDistanceSquared < distance then
        if w.step < t.sampling.minStep then none else some (w.shorten x)
      else some (w.move t p distance)

end Walk

namespace Tracer

variable {α : Type} [Scalar α] [DecidableLT α] [DecidableLE α]

/-- The points reached from a seed in one direction, farthest first and without the seed. -/
def walk? (t : Tracer α) (f : α → Option α) (rounds : Nat) (d : Direction) (seed : Point α) :
    Option (List (Point α)) :=
  (Loop.run? (Walk.advance? t f d) rounds (.start t seed)).map Walk.points

/-- The branch through a seed. -/
def branch? (t : Tracer α) (f : α → Option α) (rounds : Nat) (seed : Point α) :
    Option (Branch α) :=
  match t.walk? f rounds .backward seed, t.walk? f rounds .forward seed with
  | some back, some ahead =>
    some ⟨seed, .ofList (back ++ seed :: ahead.reverse)⟩
  | _, _ => none

/-- The branches found by the coarse scan from `cursor` on. -/
def scan? (t : Tracer α) (f : α → Option α) (rounds : Nat) :
    Nat → α → Option (List (Branch α))
  | 0, _ => none
  | n + 1, cursor =>
    if cursor ≤ t.window.xEnd then
      match t.sample? f cursor with
      | none => scan? t f rounds n (cursor + t.sampling.largeIncrement)
      | some seed =>
        match t.branch? f rounds seed with
        | none => none
        | some b => (scan? t f rounds n (b.lastX + t.sampling.largeIncrement)).map (b :: ·)
    else some []

/-- The branches of a function in the window, if every loop ends in fewer than `rounds` steps. -/
def trace? (t : Tracer α) (f : α → Option α) (rounds : Nat) : Option (List (Branch α)) :=
  t.scan? f rounds rounds t.window.xStart

/-- The branches of the curve of a formula; one that is invalid has none. -/
def traceFormula? [Transcendental α] (t : Tracer α) (e : Formula α) (rounds : Nat) :
    Option (List (Branch α)) :=
  if e.isInvalid then some [] else t.trace? (fun x => e.eval? x) rounds

end Tracer

/-- The number of steps after which a trace is given up. -/
def stepLimit : Nat := Nat.pow 2 62

/-- The record made when a branch is found. -/
def Branch.record (b : Branch Float) : Record :=
  ⟨.trace, "run from x = " ++ Decimal.plainText b.seed.x ++ " to x = " ++
    Decimal.plainText b.lastX ++ s!", {b.run.points.size} points"⟩

/-- The records made when a formula is traced into these branches. -/
def Tracer.records (e : Formula Float) (branches : List (Branch Float)) : List Record :=
  if e.isInvalid then []
  else branches.map Branch.record ++
    [⟨.debug, s!"traced {e.display} into {branches.length} runs"⟩]

/-- The runs of the curve of a formula, unless a loop takes `stepLimit` steps. -/
def Tracer.trace (t : Tracer Float) (e : Formula Float) : Option (Logged (List (Run Float))) :=
  (t.traceFormula? e stepLimit).map fun branches =>
    ⟨branches.map Branch.run, Tracer.records e branches⟩

end CurvePuzzle
