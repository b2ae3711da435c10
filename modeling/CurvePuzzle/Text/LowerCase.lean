import CurvePuzzle.Text.CaseTable
import CurvePuzzle.Text.Quoted

/-!
# Small letters

`lowerCase` replaces every capital letter by the small one of the same letter. A capital sigma at the
end of a word becomes the final form: there is a cased letter before it and none after it, apart
from characters that case ignores.
-/

set_option autoImplicit false

namespace CurvePuzzle.Text

/-- Does the row hold the code point? -/
def CaseRow.holds (r : CaseRow) (n : Nat) : Bool :=
  r.first ≤ n && n ≤ r.last && (n - r.first) % r.stride == 0

/-- The small form of a character, wherever it stands. -/
def lowerChar (c : Char) : List Char :=
  if c.toNat == 0x130 then ['i', Char.ofNat 0x307]
  else
    match lowerRanges.find? fun r => r.holds c.toNat with
    | some r => [Char.ofNat (c.toNat + r.shift).toNat]
    | none => [c]

/-- Is the first character that case does not ignore a cased letter? -/
def meetsCased (cs : List Char) : Bool :=
  match cs.dropWhile (inRanges caseIgnorableRanges) with
  | c :: _ => inRanges casedRanges c
  | [] => false

/-- The small form of a text that follows the characters of `before`, given last one first. -/
def lowerFrom (before : List Char) : List Char → List Char
  | [] => []
  | c :: cs =>
    let small :=
      if c.toNat == 0x3a3 && meetsCased before && !meetsCased cs then [Char.ofNat 0x3c2]
      else lowerChar c
    small ++ lowerFrom (c :: before) cs

/-- A text in small letters. -/
def lowerCase (cs : List Char) : List Char := lowerFrom [] cs

end CurvePuzzle.Text
