import CurvePuzzle.Text.EscapeTable

/-!
# Quoted text

A text in double quotes, in which the quote itself, the backslash and every character that does not
show as itself are escaped: tab, line feed, carriage return and NUL by a letter, the rest by their
code point in hexadecimal digits.
-/

set_option autoImplicit false

namespace CurvePuzzle.Text

/-- Is the code point of the character in one of the ranges? -/
def inRanges (ranges : List (Nat × Nat)) (c : Char) : Bool :=
  ranges.any fun r => r.1 ≤ c.toNat && c.toNat ≤ r.2

/-- Is the character written by its code point? -/
def isEscaped (c : Char) : Bool := inRanges escapedRanges c

/-- A character as it stands in a quoted text. -/
def escape (c : Char) : List Char :=
  match c with
  | '\x00' => ['\\', '0']
  | '\t' => ['\\', 't']
  | '\r' => ['\\', 'r']
  | '\n' => ['\\', 'n']
  | '\\' => ['\\', '\\']
  | '"' => ['\\', '"']
  | c =>
    if isEscaped c then ['\\', 'u', '\x7b'] ++ Nat.toDigits 16 c.toNat ++ ['\x7d'] else [c]

/-- A text in double quotes. -/
def quoted (cs : List Char) : List Char := '"' :: (cs.flatMap escape ++ ['"'])

end CurvePuzzle.Text
