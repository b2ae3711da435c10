import CurvePuzzle.Dot.Basic
import CurvePuzzle.Journal
import CurvePuzzle.Random.Source
import CurvePuzzle.Settings.Basic

/-!
# Layout of dots

Dots are placed at random in the area of the settings, the good ones first, at least two radii
apart. A dot for which `maxAttempts` places were all too close to dots already there is left out.

* `Layout.placeOne` tries places for one dot; every attempt draws `x`, then `y`.
* `Layout.generate` places all dots. It fails when the area is no range to draw from, or when no
  memory could hold the dots asked for.
-/

set_option autoImplicit false

namespace CurvePuzzle

/-- The dots placed, and the kinds of those left out. -/
structure Layout where
  dots : List Dot
  skipped : List DotKind

/-- Why no layout can be made. -/
inductive LayoutError where
  | tooManyDots
  | range (error : RangeError)
  deriving DecidableEq, Repr

/-- The words for it. -/
def LayoutError.message : LayoutError → String
  | tooManyDots => "capacity overflow"
  | range e => e.message

namespace Layout

/-- The number of places tried for one dot. -/
def maxAttempts : Nat := 1000

/-- The square of the least distance of two centres. -/
def minDistanceSquared : Float := (2.0 * Dot.radius) * (2.0 * Dot.radius)

/-- The most dots that memory could hold: 24 bytes each, in less than `2 ^ 63` bytes. -/
def maxDots : Nat := (Nat.pow 2 63 - 1) / 24

/-- Is the place far enough from all dots? -/
def isFree (dots : List Dot) (p : Point Float) : Bool :=
  dots.all fun d => decide (minDistanceSquared ≤ d.center.distanceSquared p)

/-- A random place in the area. -/
def draw (area : Area) (source : RandomSource) : Point Float × RandomSource :=
  let (x, source) := source.uniform area.xMin area.xMax
  let (y, source) := source.uniform area.yMin area.yMax
  (⟨x, y⟩, source)

/-- The first free place among as many as may be tried. -/
def placeOne (area : Area) (dots : List Dot) :
    Nat → RandomSource → Option (Point Float) × RandomSource
  | 0, source => (none, source)
  | attempts + 1, source =>
    let (p, source) := draw area source
    if isFree dots p then (some p, source) else placeOne area dots attempts source

/-- Places dots of these kinds, in order, beside those already there. -/
def placeAll (area : Area) : List DotKind → Layout → RandomSource → Layout × RandomSource
  | [], layout, source => (layout, source)
  | kind :: kinds, layout, source =>
    match placeOne area layout.dots maxAttempts source with
    | (some p, source) =>
      placeAll area kinds { layout with dots := layout.dots ++ [⟨p.x, p.y, kind⟩] } source
    | (none, source) =>
      placeAll area kinds { layout with skipped := layout.skipped ++ [kind] } source

/-- What is wrong with an area to draw places from, if anything. -/
def checkArea (area : Area) : Option RangeError :=
  (checkRange area.xMin area.xMax).or (checkRange area.yMin area.yMax)

/-- The records of a layout. -/
def records (layout : Layout) : List Record :=
  layout.skipped.map (fun kind => ⟨.warn, "no room left for a " ++ kind.name ++ " dot"⟩) ++
    [⟨.debug, s!"{layout.dots.length} dots placed"⟩]

/-- Places the dots of the settings. -/
def generate (settings : Settings) (source : RandomSource) :
    Except LayoutError (Logged (List Dot × RandomSource)) :=
  if maxDots < settings.goodDots + settings.badDots then .error .tooManyDots
  else
    let kinds :=
      List.replicate settings.goodDots DotKind.good ++ List.replicate settings.badDots DotKind.bad
    match if kinds.isEmpty then none else checkArea settings.area with
    | some e => .error (.range e)
    | none =>
      let (layout, source) := placeAll settings.area kinds ⟨[], []⟩ source
      .ok ⟨(layout.dots, source), layout.records⟩

end Layout

end CurvePuzzle
