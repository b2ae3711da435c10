import CurvePuzzle.Text.Quoted
import CurvePuzzle.Text.WidthTable

/-!
# Tables

A table is drawn with a rule between all rows and round corners. Cells stand to the left with one
blank on either side; a column is as wide as its widest line, measured in the columns of a terminal,
and a row as high as its highest cell.

* `width` is the number of terminal columns that a line fills.
* `Table.render` draws a table; the first row is its head.
-/

set_option autoImplicit false

namespace CurvePuzzle.Text

/-- The number of terminal columns that a character fills. -/
def charWidth (c : Char) : Nat :=
  if c.toNat < 0x300 then 1
  else if inRanges zeroRanges c then 0
  else if inRanges wideRanges c then 2
  else 1

/-- The number of terminal columns that a line fills. -/
def width (line : List Char) : Nat := line.foldl (fun n c => n + charWidth c) 0

/-- A table: its rows of cells, the head first. -/
structure Table where
  rows : List (List (List Char))

namespace Table

/-- The lines of a cell. -/
def lines (cell : List Char) : List (List Char) := cell.splitOn '\n'

/-- The width of a cell. -/
def cellWidth (cell : List Char) : Nat := ((lines cell).map width).foldl max 0

/-- The widths of the columns. -/
def columnWidths (t : Table) : List Nat :=
  let columns := (t.rows.map List.length).foldl max 0
  (List.range columns).map fun i =>
    (t.rows.map fun row => cellWidth (row.getD i [])).foldl max 0

/-- A rule across the table, with the characters of its left end, crossings and right end. -/
def rule (widths : List Nat) (left cross right : Char) : List Char :=
  let spans := widths.map fun w => List.replicate (w + 2) '─'
  left :: ([cross].intercalate spans ++ [right])

/-- A line of a cell, filled up to the width of its column. -/
def pad (w : Nat) (line : List Char) : List Char :=
  ' ' :: (line ++ List.replicate (w - width line + 1) ' ')

/-- The lines of a row. -/
def rowLines (widths : List Nat) (row : List (List Char)) : List (List Char) :=
  let cells := row.map lines
  let height := (cells.map List.length).foldl max 0
  (List.range height).map fun k =>
    let parts := (widths.zip cells).map fun m => pad m.1 (m.2.getD k [])
    '│' :: (['│'].intercalate parts ++ ['│'])

/-- The table, drawn. -/
def render (t : Table) : List Char :=
  let widths := t.columnWidths
  let bodies := t.rows.map (rowLines widths)
  let inner := [rule widths '├' '┼' '┤']
  let all := [rule widths '╭' '┬' '╮'] ++ inner.intercalate bodies ++ [rule widths '╰' '┴' '╯']
  ['\n'].intercalate all

end Table

end CurvePuzzle.Text
