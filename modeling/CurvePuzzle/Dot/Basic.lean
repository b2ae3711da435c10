import CurvePuzzle.Curve.Run

/-!
# Dots

A dot is a circle of fixed radius on the field. To hit a good one scores, to hit a bad one voids the
round.

* `Dot.contains` is the circle with its edge.
* `Dot.isHitByRuns` looks for a traced point in the circle; of every run only the points within a
  radius of the centre in `x` are looked at.
-/

set_option autoImplicit false

namespace CurvePuzzle

/-- What hitting a dot does. -/
inductive DotKind where
  | good
  | bad
  deriving DecidableEq, Repr

/-- The name of a kind. -/
def DotKind.name : DotKind → String
  | good => "good"
  | bad => "bad"

/-- The kind of this name. -/
def DotKind.ofName? (s : String) : Option DotKind := [good, bad].find? fun k => k.name == s

/-- A circle of fixed radius, given by its centre. -/
structure Dot where
  x : Float
  y : Float
  kind : DotKind

namespace Dot

/-- The radius of every dot. -/
def radius : Float := 0.25

/-- The centre of a dot. -/
def center (d : Dot) : Point Float := ⟨d.x, d.y⟩

/-- The square of the distance of a point from the centre. -/
def distanceSquared (d : Dot) (x y : Float) : Float := Point.distanceSquared ⟨x, y⟩ d.center

/-- Does the point lie inside the circle or on it? -/
def contains (d : Dot) (x y : Float) : Bool := decide (d.distanceSquared x y ≤ radius * radius)

/-- Does a point of one of the runs lie in the circle? -/
def isHitByRuns (d : Dot) (runs : List (Run Float)) : Bool :=
  runs.any fun r => (r.inWindow (d.x - radius) (d.x + radius)).any fun p => d.contains p.x p.y

end Dot

end CurvePuzzle
