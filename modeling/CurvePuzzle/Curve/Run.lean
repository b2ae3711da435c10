import CurvePuzzle.Scalar

/-!
# Points and runs

A run is one continuous branch of a curve, as a row of points by rising `x`.

* `Run.ofList` sorts points, those of equal `x` keeping their order; `Run.insert` adds a point
  behind all points of equal `x`.
* `Run.inWindow` cuts out the points between two values of `x`.
* Both look for their places by `partitionPoint`, which halves the search range at every test.
-/

set_option autoImplicit false

namespace CurvePuzzle

/-- A point of the plane. -/
structure Point (α : Type) where
  x : α
  y : α
  deriving DecidableEq, Repr

/-- The square of the distance of two points. -/
def Point.distanceSquared {α : Type} [Scalar α] (p q : Point α) : α :=
  (p.x - q.x) * (p.x - q.x) + (p.y - q.y) * (p.y - q.y)

/-- Does the element at a place exist and pass the test? -/
def passesAt {β : Type} (test : β → Bool) (bs : Array β) (i : Nat) : Bool := bs[i]?.any test

/-- Narrows the range of `size` places from `base` on to the one place where the elements that
pass the test may end. -/
def narrow {β : Type} (test : β → Bool) (bs : Array β) (base size : Nat) : Nat :=
  if 1 < size then
    let middle := base + size / 2
    narrow test bs (if passesAt test bs middle then middle else base) (size - size / 2)
  else base
termination_by size

/-- How many elements pass the test, when all that pass come before all that fail. -/
def partitionPoint {β : Type} (test : β → Bool) (bs : Array β) : Nat :=
  let place := narrow test bs 0 bs.size
  if passesAt test bs place then place + 1 else place

/-- One continuous branch of a curve. -/
structure Run (α : Type) where
  points : Array (Point α)

namespace Run

variable {α : Type} [Scalar α] [DecidableLT α] [DecidableLE α]

/-- The run of these points, sorted by `x`. -/
def ofList (ps : List (Point α)) : Run α :=
  ⟨(ps.mergeSort fun p q => Scalar.precedes p.x q.x).toArray⟩

/-- The run with one more point, behind those whose `x` is not larger. -/
def insert (r : Run α) (p : Point α) : Run α :=
  let place := partitionPoint (fun q => decide (q.x ≤ p.x)) r.points
  ⟨r.points.extract 0 place ++ #[p] ++ r.points.extract place r.points.size⟩

/-- The points of the run with `low ≤ x ≤ high`. -/
def inWindow (r : Run α) (low high : α) : Array (Point α) :=
  let first := partitionPoint (fun q => decide (q.x < low)) r.points
  let last := partitionPoint (fun q => decide (q.x ≤ high)) r.points
  r.points.extract first (max first last)

/-- The squared distances of neighbouring points. -/
def gaps (r : Run α) : List α :=
  let ps := r.points.toList
  (ps.zip (ps.drop 1)).map fun m => m.1.distanceSquared m.2

end Run

end CurvePuzzle
