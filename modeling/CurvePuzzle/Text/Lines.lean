/-!
# Lines

A text is divided into lines at line feeds; a carriage return before a line feed belongs to the line
end. Nothing follows the last line end.
-/

set_option autoImplicit false

namespace CurvePuzzle.Text

/-- The lines of a text. -/
def lines : List Char → List (List Char)
  | [] => []
  | '\r' :: '\n' :: cs => [] :: lines cs
  | c :: cs =>
    if c == '\n' then [] :: lines cs
    else
      match lines cs with
      | [] => [[c]]
      | l :: ls => (c :: l) :: ls

/-- The text of these lines, each but the last one ended by a line feed. -/
def joinLines : List (List Char) → List Char
  | [] => []
  | [l] => l
  | l :: ls => l ++ '\n' :: joinLines ls

end CurvePuzzle.Text
