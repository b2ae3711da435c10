import CurvePuzzle.Journal
import CurvePuzzle.Text.LowerCase

/-!
# Naming a threshold

The threshold of the journal is given by a word, in small or capital letters; without one it is
`info`.
-/

set_option autoImplicit false

namespace CurvePuzzle.Threshold

/-- The thresholds by their words. -/
def words : List (String × Threshold) :=
  [("trace", upTo .trace), ("debug", upTo .debug), ("info", upTo .info), ("warn", upTo .warn),
    ("error", upTo .error), ("off", off)]

/-- The name of a threshold, in capitals. -/
def name : Threshold → String
  | off => "OFF"
  | upTo level => level.name

/-- No threshold has this word, which is in small letters. -/
structure UnknownWord where
  word : String
  deriving DecidableEq, Repr

/-- The words for it. -/
def UnknownWord.message (e : UnknownWord) : String :=
  "loglevel must be trace, debug, info, warn, error or off, got '" ++ e.word ++ "'"

/-- The threshold that a word stands for; without a word it is `info`. -/
def ofWord (word : Option String) : Except UnknownWord Threshold :=
  match word with
  | none => .ok (upTo .info)
  | some word =>
    let small := String.ofList (Text.lowerCase word.toList)
    match words.lookup small with
    | some t => .ok t
    | none => .error ⟨small⟩

end CurvePuzzle.Threshold
