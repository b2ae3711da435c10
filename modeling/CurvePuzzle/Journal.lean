/-!
# The journal

What the game reports about its own work is data: a list of records, each with a level.

* `Level` runs from `error` to `trace`; a `Threshold` lets the records through that are at least as
  severe, or none.
* `Logged α` is a value with the records made on the way to it, in order.
-/

set_option autoImplicit false

namespace CurvePuzzle

/-- How severe a record is. -/
inductive Level where
  | error
  | warn
  | info
  | debug
  | trace
  deriving DecidableEq, Repr

namespace Level

/-- The levels by falling severity. -/
def all : List Level := [error, warn, info, debug, trace]

/-- The name of a level, in capitals. -/
def name : Level → String
  | error => "ERROR"
  | warn => "WARN"
  | info => "INFO"
  | debug => "DEBUG"
  | trace => "TRACE"

/-- The rank of a level; the most severe one has the least. -/
def rank : Level → Nat
  | error => 1
  | warn => 2
  | info => 3
  | debug => 4
  | trace => 5

end Level

/-- Which records are let through: those at least as severe as a level, or none. -/
inductive Threshold where
  | off
  | upTo (level : Level)
  deriving DecidableEq, Repr

/-- One report. -/
structure Record where
  level : Level
  text : String
  deriving DecidableEq, Repr

/-- The level and the text of a record, in one line. -/
def Record.line (r : Record) : String := r.level.name ++ " " ++ r.text

/-- Is a record let through? -/
def Threshold.admits (t : Threshold) (r : Record) : Bool :=
  match t with
  | off => false
  | upTo level => r.level.rank ≤ level.rank

/-- A value, with the records made on the way to it. -/
structure Logged (α : Type) where
  value : α
  records : List Record

namespace Logged

instance : Monad Logged where
  pure a := ⟨a, []⟩
  bind m f :=
    let next := f m.value
    ⟨next.value, m.records ++ next.records⟩

/-- Makes one record. -/
def report (level : Level) (text : String) : Logged Unit := ⟨(), [⟨level, text⟩]⟩

end Logged

end CurvePuzzle
