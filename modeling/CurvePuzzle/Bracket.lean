/-!
# Round brackets

Brackets are matched by counting depth, from either side.

* `balanced`: every closing bracket closes an earlier one and none stays open.
* `close?` and `open?` find the partner of a bracket at a given position. Positions count the units
  of a text: the characters of a `List Char`, or the bytes of a string seen through `units`. Asking
  at a place that holds no such bracket is a `Misuse`.
* `isEnclosed`: the whole text is one bracketed group.
-/

set_option autoImplicit false

namespace CurvePuzzle.Bracket

/-- Is the text balanced when read after `depth` brackets were left open? -/
def balancedFrom : Nat → List Char → Bool
  | depth, [] => depth == 0
  | depth, c :: cs =>
    if c == '(' then balancedFrom (depth + 1) cs
    else if c == ')' then
      match depth with
      | 0 => false
      | depth + 1 => balancedFrom depth cs
    else balancedFrom depth cs

/-- Does every closing bracket close an earlier one, and stays none open? -/
def balanced (cs : List Char) : Bool := balancedFrom 0 cs

/-- How far ahead the bracket `down` lies that ends the group in which `depth` more groups are
open, a group being begun by `up` and ended by `down`. -/
def partner? (up down : Char) : Nat → List Char → Option Nat
  | _, [] => none
  | depth, c :: cs =>
    if c == up then (partner? up down (depth + 1) cs).map (· + 1)
    else if c == down then
      match depth with
      | 0 => some 0
      | depth + 1 => (partner? up down depth cs).map (· + 1)
    else (partner? up down depth cs).map (· + 1)

/-- How far ahead in the text the bracket lies that closes a group opened just before it. -/
def closing? (cs : List Char) : Option Nat := partner? '(' ')' 0 cs

/-- How far back in a reversed text the bracket lies that opens a group closed just after it. -/
def opening? (reversed : List Char) : Option Nat := partner? ')' '(' 0 reversed

/-- A search that was asked for at a place without the bracket that it starts from. -/
inductive Misuse where
  | outOfRange (index length : Nat)
  | notOpening (index : Nat) (found : Char)
  | notClosing (index : Nat) (found : Char)
  deriving DecidableEq, Repr

/-- The words for a misuse. -/
def Misuse.message : Misuse → String
  | outOfRange index length =>
    s!"bracket index {index} out of range for input of length {length}"
  | notOpening index found =>
    s!"assertion `left == right` failed: no opening bracket at {index}\n" ++
      s!"  left: {found.toNat}\n right: 40"
  | notClosing index found =>
    s!"assertion `left == right` failed: no closing bracket at {index}\n" ++
      s!"  left: {found.toNat}\n right: 41"

/-- The position of the bracket that closes the one at `index`, if it is ever closed. -/
def close? (cs : List Char) (index : Nat) : Except Misuse (Option Nat) :=
  match cs[index]? with
  | none => .error (.outOfRange index cs.length)
  | some c =>
    if c == '(' then .ok ((closing? (cs.drop (index + 1))).map (index + 1 + ·))
    else .error (.notOpening index c)

/-- The position of the bracket that opens the group closed at `index`, if there is one. -/
def open? (cs : List Char) (index : Nat) : Except Misuse (Option Nat) :=
  match cs[index]? with
  | none => .error (.outOfRange index cs.length)
  | some c =>
    if c == ')' then .ok ((opening? (cs.take index).reverse).map (index - 1 - ·))
    else .error (.notClosing index c)

/-- Is the whole text one group, as `(x+1)` is and `(x)+(1)` is not? -/
def isEnclosed : List Char → Bool
  | '(' :: cs => (closing? cs).any fun k => k + 1 == cs.length
  | _ => false

/-- The bytes of a string, each shown as the character of the same number. Brackets look the same
in both views, so that bracket positions in `units s` are byte positions in `s`. -/
def units (s : String) : List Char := s.toUTF8.toList.map fun b => Char.ofNat b.toNat

end CurvePuzzle.Bracket
