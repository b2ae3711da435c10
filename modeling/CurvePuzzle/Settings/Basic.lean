import CurvePuzzle.Curve.Tracer

/-!
# Settings of a game

The settings fix the window and how it is sampled, how many dots are placed where, and the seed of
all random draws.

* `Settings.standard` are the settings of a game that sets none.
* `Settings.validate` refuses an empty window, a limit or increments that are not positive, an empty
  distance band, and an empty area for the dots; every comparison also refuses undefined numbers.
-/

set_option autoImplicit false

namespace CurvePuzzle

/-- The rectangle in which the centres of dots are placed. -/
structure Area where
  xMin : Float
  xMax : Float
  yMin : Float
  yMax : Float

/-- The settings of a game. -/
structure Settings where
  window : Window Float
  sampling : Sampling Float
  goodDots : Nat
  badDots : Nat
  area : Area
  seed : UInt64

/-- Why settings are refused. -/
inductive SettingsError where
  | window (xStart xEnd : Float)
  | yLimit (value : Float)
  | increments
  | distances (min max : Float)
  | area (area : Area)

/-- The words for it. -/
def SettingsError.message : SettingsError → String
  | window xStart xEnd =>
    "empty tracing window [" ++ Decimal.plainText xStart ++ ", " ++ Decimal.plainText xEnd ++ "]"
  | yLimit value => "y_limit must be positive, got " ++ Decimal.plainText value
  | increments => "tracer increments must be positive"
  | distances min max =>
    "bad distance band [" ++ Decimal.plainText min ++ ", " ++ Decimal.plainText max ++ "]"
  | area a =>
    "empty layout area (" ++ Decimal.markedText a.xMin ++ ", " ++ Decimal.markedText a.xMax ++
      ") x (" ++ Decimal.markedText a.yMin ++ ", " ++ Decimal.markedText a.yMax ++ ")"

namespace Settings

/-- The settings of a game that sets none. -/
def standard : Settings :=
  { window := ⟨-10.0, 10.0, 1000.0⟩
    sampling := .standard
    goodDots := 6
    badDots := 3
    area := ⟨-9.0, 9.0, -9.0, 9.0⟩
    seed := 0 }

/-- The first fault of the settings, if there is one. -/
def fault? (s : Settings) : Option SettingsError :=
  if !(s.window.xStart < s.window.xEnd) then some (.window s.window.xStart s.window.xEnd)
  else if !(0.0 < s.window.yLimit) then some (.yLimit s.window.yLimit)
  else if !(0.0 < s.sampling.largeIncrement && 0.0 < s.sampling.smallIncrement) then
    some .increments
  else if !(0.0 < s.sampling.minDistanceSquared &&
      s.sampling.minDistanceSquared < s.sampling.maxDistanceSquared) then
    some (.distances s.sampling.minDistanceSquared s.sampling.maxDistanceSquared)
  else if !(s.area.xMin < s.area.xMax && s.area.yMin < s.area.yMax) then some (.area s.area)
  else none

/-- Accepts settings without a fault. -/
def validate (s : Settings) : Except SettingsError Unit :=
  match s.fault? with
  | some e => .error e
  | none => .ok ()

/-- The tracer of the settings. -/
def tracer (s : Settings) : Except TracerError (Tracer Float) := Tracer.make? s.window s.sampling

end Settings

end CurvePuzzle
