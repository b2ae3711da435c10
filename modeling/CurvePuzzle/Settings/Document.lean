import CurvePuzzle.Document.Reader
import CurvePuzzle.Journal
import CurvePuzzle.Settings.Basic

/-!
# Settings from a document

A document overrides settings: its sections are `tracer`, `layout` and `game`, every key has exactly
one value of its kind, and the result must be valid. Every key may be missing.

* `Settings.setters`: the keys of a section, and what each of them sets.
* `Settings.put` overrides one setting; `Settings.override` applies a document in order.
* `Settings.ofDocument`, `Settings.ofText` and `Settings.ofFile` start from the standard settings,
  `SettingsFault` says why they fail.
-/

set_option autoImplicit false

namespace CurvePuzzle

/-- What a file holds that is to be read. -/
inductive FileContent where
  | missing
  | bytes (data : ByteArray)

/-- Why a file cannot be read as text. -/
inductive FileError where
  | notFound
  | notText
  deriving DecidableEq, Repr

/-- The words for it. -/
def FileError.message : FileError → String
  | notFound => "No such file or directory (os error 2)"
  | notText => "stream did not contain valid UTF-8"

/-- The text that a file holds. -/
def FileContent.text : FileContent → Except FileError String
  | missing => .error .notFound
  | bytes data =>
    match String.fromUTF8? data with
    | some s => .ok s
    | none => .error .notText

/-- Why a text gives no settings. -/
inductive SettingsFault where
  | document (error : DocumentError)
  | unknownSection (title : String)
  | unknownKey (title key : String)
  | valueCount (title key : String) (count : Nat)
  | notNumber (title key : String) (value : Value)
  | notCount (title key : String) (value : Value)
  | invalid (error : SettingsError)
  | file (path : String) (error : FileError)

/-- The words for it. -/
def SettingsFault.message : SettingsFault → String
  | document e => e.message
  | unknownSection title => "unknown section '" ++ title ++ "'"
  | unknownKey title key => "unknown key '" ++ title ++ "." ++ key ++ "'"
  | valueCount title key count =>
    title ++ "." ++ key ++ s!": expected exactly one value, found {count}"
  | notNumber title key value =>
    title ++ "." ++ key ++ ": '" ++ String.ofList value.display ++ "' is not a number"
  | notCount title key value =>
    title ++ "." ++ key ++ ": '" ++ String.ofList value.display ++
      "' is not a non-negative integer"
  | invalid e => e.message
  | file path e => "cannot read settings file " ++ path ++ ": " ++ e.message

namespace Settings

/-- The value of a key that must have exactly one. -/
def single (title key : String) : List Value → Except SettingsFault Value
  | [v] => .ok v
  | vs => .error (.valueCount title key vs.length)

/-- The number that a key is given. -/
def number (title key : String) (values : List Value) : Except SettingsFault Float :=
  match single title key values with
  | .error e => .error e
  | .ok v =>
    match v.asFloat? with
    | some x => .ok x
    | none => .error (.notNumber title key v)

/-- The count that a key is given. -/
def count (title key : String) (values : List Value) : Except SettingsFault Nat :=
  match single title key values with
  | .error e => .error e
  | .ok v =>
    match v.asInteger? with
    | some i => if 0 ≤ i then .ok i.toNat else .error (.notCount title key v)
    | none => .error (.notCount title key v)

/-- What the settings become when one of them is set, to a number or to a count. -/
inductive Setter where
  | number (set : Float → Settings)
  | count (set : Nat → Settings)

/-- The settings that a section knows, by their keys. -/
def setters (s : Settings) : String → List (String × Setter)
  | "tracer" =>
    [("x_start", .number fun v => { s with window := { s.window with xStart := v } }),
      ("x_end", .number fun v => { s with window := { s.window with xEnd := v } }),
      ("y_limit", .number fun v => { s with window := { s.window with yLimit := v } }),
      ("large_increment",
        .number fun v => { s with sampling := { s.sampling with largeIncrement := v } }),
      ("small_increment",
        .number fun v => { s with sampling := { s.sampling with smallIncrement := v } }),
      ("min_distance_squared",
        .number fun v => { s with sampling := { s.sampling with minDistanceSquared := v } }),
      ("max_distance_squared",
        .number fun v => { s with sampling := { s.sampling with maxDistanceSquared := v } })]
  | "layout" =>
    [("good_dots", .count fun n => { s with goodDots := n }),
      ("bad_dots", .count fun n => { s with badDots := n }),
      ("x_min", .number fun v => { s with area := { s.area with xMin := v } }),
      ("x_max", .number fun v => { s with area := { s.area with xMax := v } }),
      ("y_min", .number fun v => { s with area := { s.area with yMin := v } }),
      ("y_max", .number fun v => { s with area := { s.area with yMax := v } })]
  | "game" => [("seed", .count fun n => { s with seed := UInt64.ofNat n })]
  | _ => []

/-- Overrides one setting of the tracer; its value is looked at before its name. -/
def putTracer (s : Settings) (key : String) (values : List Value) :
    Except SettingsFault Settings :=
  match number "tracer" key values with
  | .error e => .error e
  | .ok v =>
    match (s.setters "tracer").lookup key with
    | some (.number set) => .ok (set v)
    | _ => .error (.unknownKey "tracer" key)

/-- Overrides one setting of the layout or the game; its name is looked at before its value. -/
def putNamed (s : Settings) (title key : String) (values : List Value) :
    Except SettingsFault Settings :=
  match (s.setters title).lookup key with
  | some (.number set) => (number title key values).map set
  | some (.count set) => (count title key values).map set
  | none => .error (.unknownKey title key)

/-- Overrides one setting. -/
def put (s : Settings) (title key : String) (values : List Value) :
    Except SettingsFault Settings :=
  if title == "tracer" then s.putTracer key values else s.putNamed title key values

/-- The titles of sections that settings know. -/
def titles : List String := ["tracer", "layout", "game"]

/-- Overrides the settings of one section. -/
def putSection (title : String) : Section → Settings → Except SettingsFault Settings
  | [], s => .ok s
  | (key, values) :: entries, s =>
    match s.put title key values with
    | .error e => .error e
    | .ok s => putSection title entries s

/-- Overrides settings by a document. -/
def override : Document → Settings → Except SettingsFault Settings
  | [], s => .ok s
  | (title, entries) :: rest, s =>
    if !titles.contains title then .error (.unknownSection title)
    else
      match putSection title entries s with
      | .error e => .error e
      | .ok s => override rest s

/-- The standard settings overridden by a document, if the result is valid. -/
def ofDocument (d : Document) : Except SettingsFault Settings :=
  match override d standard with
  | .error e => .error e
  | .ok s =>
    match s.fault? with
    | some e => .error (.invalid e)
    | none => .ok s

/-- The settings that a text gives. -/
def ofText (text : String) : Except SettingsFault Settings :=
  match Document.read text with
  | .error e => .error (.document e)
  | .ok d => ofDocument d

/-- The settings that a file gives, with the record of reading it. -/
def ofFile (path : String) (content : FileContent) : Except SettingsFault (Logged Settings) :=
  match content.text with
  | .error e => .error (.file path e)
  | .ok text =>
    match ofText text with
    | .error e => .error e
    | .ok s => .ok ⟨s, [⟨.info, "settings loaded from " ++ path⟩]⟩

end Settings

end CurvePuzzle
