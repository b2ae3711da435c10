import CurvePuzzle.Decimal.Reader
import CurvePuzzle.Decimal.Text

/-!
# Documents

A document has titled sections, a section has keys, and every key has a list of values.

* `Value` is a value; `Value.ofToken` finds its kind: an integer that fits 64 bits, else a number,
  else a truth value, else text.
* `Section.put` gives a key its values; the last ones given to a key stay.
-/

set_option autoImplicit false

namespace CurvePuzzle

/-- A value in a document. -/
inductive Value where
  | text (chars : List Char)
  | float (value : Float)
  | integer (value : Int)
  | boolean (value : Bool)

namespace Value

/-- The value that a token stands for. -/
def ofToken (cs : List Char) : Value :=
  match Decimal.readInteger? cs with
  | some i => integer i
  | none =>
    match Decimal.readFloat? cs with
    | some v => float v
    | none =>
      if cs == "true".toList then boolean true
      else if cs == "false".toList then boolean false
      else text cs

/-- The value as text. -/
def display : Value → List Char
  | text cs => cs
  | float v => Decimal.text Decimal.plain v
  | integer i => Decimal.intText i
  | boolean b => (toString b).toList

/-- The value as a number; an integer is one. -/
def asFloat? : Value → Option Float
  | float v => some v
  | integer i => some (Float.ofInt i)
  | _ => none

/-- The value as an integer. -/
def asInteger? : Value → Option Int
  | integer i => some i
  | _ => none

end Value

/-- The keys of a section with their values, every key once. -/
abbrev Section := List (String × List Value)

/-- The section with these values for a key, in place of any it had. -/
def Section.put (key : String) (values : List Value) : Section → Section
  | [] => [(key, values)]
  | (k, old) :: entries =>
    if k == key then (k, values) :: entries else (k, old) :: put key values entries

/-- The section that gives its keys these values, one after the other. -/
def Section.ofEntries (entries : List (String × List Value)) : Section :=
  entries.foldl (fun s e => s.put e.1 e.2) []

/-- The sections of a document, by their titles. -/
abbrev Document := List (String × Section)

end CurvePuzzle
