import CurvePuzzle.Round.Basic
import CurvePuzzle.Text.Table

/-!
# The report of a round

The outcomes of a round as a table with one row for every slot: its number, its formula, and how
many runs, good hits and bad hits it has.
-/

set_option autoImplicit false

namespace CurvePuzzle

/-- What the report shows for the formula of a slot: its canonical text, or why there is none. -/
def Outcome.formulaCell (o : Outcome) : List Char :=
  match o.printed with
  | some cs => cs
  | none =>
    if Text.allBlank o.text.toList then []
    else "invalid: ".toList ++ Text.trim o.text.toList

/-- The row of a slot. -/
def Outcome.row (o : Outcome) : List (List Char) :=
  [Decimal.natText o.slot, o.formulaCell, Decimal.natText o.runs.length,
    Decimal.natText o.goodHits, Decimal.natText o.badHits]

/-- The head of the report. -/
def RoundResult.head : List (List Char) :=
  ["slot".toList, "expression".toList, "runs".toList, "good".toList, "bad".toList]

/-- The report, drawn. -/
def RoundResult.table (r : RoundResult) : String :=
  String.ofList (Text.Table.render ⟨RoundResult.head :: r.outcomes.map Outcome.row⟩)

end CurvePuzzle
