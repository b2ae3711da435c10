import CurvePuzzle.Round.Report
import CurvePuzzle.Settings.Document
import CurvePuzzle.Threshold

/-!
# The command line

The arguments name a settings file, a threshold for the journal, and up to five formulas. The
program lays out dots, plays one round, and prints the dots, the report and the score.

* `Invocation.parse` reads the arguments. Options have their values in the same argument behind `=`,
  or in the next one, and may stand among the formulas; each may be given once. Behind `--` every
  argument is a formula.
* `Arguments.run` is what the program prints, and its exit code.
-/

set_option autoImplicit false

namespace CurvePuzzle

/-- The options and formulas of an invocation. -/
structure Arguments where
  settings : Option String
  log : Option String
  formulas : List String
  deriving DecidableEq, Repr

/-- What an invocation asks for. -/
inductive Invocation where
  | play (arguments : Arguments)
  | version
  | help
  /-- The arguments are not in order. -/
  | misused
  deriving DecidableEq, Repr

namespace Invocation

/-- The most formulas that may follow one another. -/
def maxFormulas : Nat := slotCount

/-- The options that take a value. -/
inductive Key where
  | settings
  | log
  deriving DecidableEq, Repr

/-- The option of this name. -/
def Key.ofName? : List Char → Option Key
  | ['s', 'e', 't', 't', 'i', 'n', 'g', 's'] => some .settings
  | ['l', 'o', 'g'] => some .log
  | _ => none

/-- Gives an option its value; not a second time, and a path may not be empty. -/
def give? (a : Arguments) (key : Key) (value : String) : Option Arguments :=
  match key with
  | .settings =>
    if a.settings.isSome || value.isEmpty then none else some { a with settings := some value }
  | .log => if a.log.isSome then none else some { a with log := some value }

/-- Can the argument be the value of an option before it? A lone dash can. -/
def isValue (arg : String) : Bool :=
  match arg.toList with
  | '-' :: _ :: _ => false
  | _ => true

/-- The flag of this letter. -/
def ofLetter : Char → Invocation
  | 'V' => version
  | 'h' => help
  | _ => misused

/-- The long flag of this name. -/
def ofLongName (name : List Char) : Invocation :=
  if name == "version".toList then version
  else if name == "help".toList then help
  else misused

/-- Reads the arguments behind some others; `pending` formulas stood directly before, and behind
`--` all arguments are formulas. -/
def parseFrom (a : Arguments) (pending : Nat) (isRest : Bool) : List String → Invocation
  | [] => if maxFormulas < pending then misused else play a
  | arg :: args =>
    let formula := { a with formulas := a.formulas ++ [arg] }
    if isRest then parseFrom formula (pending + 1) true args
    else
      match arg.toList with
      | ['-', '-'] => parseFrom a pending true args
      | '-' :: '-' :: cs =>
        if maxFormulas < pending then misused
        else
          let (name, value) := cs.span (· != '=')
          match Key.ofName? name, value with
          | some key, _ :: value =>
            match give? a key (String.ofList value) with
            | some a => parseFrom a 0 false args
            | none => misused
          | some key, [] =>
            match args with
            | next :: args =>
              if isValue next then
                match give? a key next with
                | some a => parseFrom a 0 false args
                | none => misused
              else misused
            | [] => misused
          | none, [] => ofLongName name
          | none, _ :: _ => misused
      | '-' :: c :: _ => if maxFormulas < pending then misused else ofLetter c
      | _ => parseFrom formula (pending + 1) false args

/-- Reads the arguments of an invocation. -/
def parse (args : List String) : Invocation := parseFrom ⟨none, none, []⟩ 0 false args

end Invocation

/-- What a program prints, and its exit code. -/
structure Transcript where
  exit : UInt32
  stdout : String
  stderr : String
  deriving DecidableEq, Repr

namespace Transcript

/-- A program that ends with an error. -/
def failure (exit : UInt32) (message : String) : Transcript := ⟨exit, "", message ++ "\n"⟩

end Transcript

/-- The exit code of a program that breaks off. -/
def brokenOff : UInt32 := 101

/-- A line for a dot: its kind, and its centre to two places. -/
def Dot.line (d : Dot) : String :=
  String.ofList (List.replicate (5 - d.kind.name.length) ' ') ++ d.kind.name ++ " (" ++
    String.ofList (Decimal.fixed 2 d.x) ++ ", " ++ String.ofList (Decimal.fixed 2 d.y) ++ ")\n"

/-- The formulas that are played when none are given. -/
def defaultFormulas : List String := ["2*x+1", "sin(x)*5"]

/-- The round with these texts in its slots, from a slot on. -/
def Round.fill (r : Round) : Nat → List String → Except SlotError Round
  | _, [] => .ok r
  | slot, text :: texts =>
    match r.setText slot text with
    | .error e => .error e
    | .ok r => r.fill (slot + 1) texts

namespace Arguments

/-- Plays one round with these settings. -/
def playWith (a : Arguments) (settings : Settings) : Transcript :=
  let formulas := if a.formulas.isEmpty then defaultFormulas else a.formulas
  match Round.layoutOf settings with
  | .error e => .failure brokenOff e.message
  | .ok dots =>
    match (Round.ofDots dots.value).fill 0 formulas with
    | .error e => .failure brokenOff e.message
    | .ok round =>
      let shown := "Dots\n\n" ++ String.join (round.dots.map Dot.line)
      match round.play settings with
      | .error e => ⟨brokenOff, shown, e.message ++ "\n"⟩
      | .ok played =>
        let result := played.value
        ⟨0, shown ++ "\n" ++ result.table ++ "\n" ++ s!"score: {result.score}\n", ""⟩

/-- Runs the program; `file` is what the settings file holds. -/
def run (a : Arguments) (file : FileContent) : Transcript :=
  match Threshold.ofWord a.log with
  | .error e => .failure 1 e.message
  | .ok _ =>
    match a.settings with
    | none => a.playWith .standard
    | some path =>
      match Settings.ofFile path file with
      | .error e => .failure 1 e.message
      | .ok settings => a.playWith settings.value

end Arguments

/-- The name and version of the program. -/
def versionText : String := "RustedGraphDots 0.1.0\n"

/-- How the program is called. -/
def usageText : String :=
  "Usage: RustedGraphDots [OPTIONS] [EXPRESSIONS]...\n\nOptions:\n" ++
    "      --settings <SETTINGS>\n      --log <LOG>\n  -h, --help\n  -V, --version\n"

/-- What an invocation prints, and its exit code. -/
def Invocation.run (i : Invocation) (file : FileContent) : Transcript :=
  match i with
  | play a => a.run file
  | version => ⟨0, versionText, ""⟩
  | help => ⟨0, usageText, ""⟩
  | misused => ⟨2, "", usageText⟩

end CurvePuzzle
