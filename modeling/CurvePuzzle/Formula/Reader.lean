import CurvePuzzle.Journal
import CurvePuzzle.Text.Blank
import CurvePuzzle.Formula.Shape

/-!
# Reading formulas

A player's text becomes a formula: blank characters are dropped, what is left is checked, and a
text that passes is read by its shape, piece by piece.

* `Rejection` says why a text is refused before it is read; `reject?` makes the checks in order.
* `parse?` reads a checked text. `parse?_eq`: it assembles the shape of the text from what its
  pieces read as. `visited` lists the texts looked at on the way, `visited_eq` likewise.
* `Formula.read` is the whole of it; a text that is no formula gives `Formula.invalid`.
* `Formula.readLogged` adds the records of the reading.
-/

set_option autoImplicit false

namespace CurvePuzzle

/-- Why a text is refused. -/
inductive Rejection where
  | empty
  | unexpected (c : Char)
  | unbalanced
  | signedExponent
  deriving DecidableEq, Repr

/-- The words for a refusal. -/
def Rejection.message : Rejection → String
  | empty => "empty input"
  | unexpected c => "unexpected character '" ++ String.singleton c ++ "'"
  | unbalanced => "unbalanced brackets"
  | signedExponent => "signed exponent must be put in brackets"

namespace Reading

/-- The text without the occurrences of a word, taken from the left; `skip` characters of the
last one remain to be dropped. -/
def strike (word : List Char) : Nat → List Char → List Char
  | _, [] => []
  | skip + 1, _ :: cs => strike word skip cs
  | 0, c :: cs =>
    if word.isPrefixOf (c :: cs) then strike word (word.length - 1) cs
    else c :: strike word 0 cs

/-- The text without function names, each name struck out in turn. -/
def withoutNames (cs : List Char) : List Char :=
  FunctionName.all.foldl (fun cs f => strike f.word 0 cs) cs

/-- The characters allowed once function names are struck out. -/
def allowedChars : List Char := "-0123456789.+/*^()xX".toList

/-- Does a sign directly follow a power mark? -/
def hasSignedExponent : List Char → Bool
  | c :: d :: cs => (c == '^' && (d == '-' || d == '+')) || hasSignedExponent (d :: cs)
  | _ => false

/-- The first reason to refuse a text without blank characters. -/
def reject? (cs : List Char) : Option Rejection :=
  if cs.isEmpty then some .empty
  else
    match (withoutNames cs).find? fun c => !allowedChars.contains c with
    | some c => some (.unexpected c)
    | none =>
      if !Bracket.balanced cs then some .unbalanced
      else if hasSignedExponent cs then some .signedExponent
      else none

/-- The members of a sum or product, each read. -/
def readMembers? (read? : List Char → Option (Formula Float)) :
    List (Polarity × List Char) → Option (List (Polarity × Formula Float))
  | [] => some []
  | (p, u) :: ms =>
    match read? u, readMembers? read? ms with
    | some e, some rest => some ((p, e) :: rest)
    | _, _ => none

/-- The formula of a shape, its pieces being read by `read?`. -/
def assemble? (read? : List Char → Option (Formula Float)) : Shape → Option (Formula Float)
  | .nothing => none
  | .group inner => read? inner
  | .var => some .var
  | .number v => some (.const v)
  | .signed p rest => (read? rest).map fun e => .sum [(p, e)]
  | .call f argument => (read? argument).map (.func f)
  | .sum ts => (readMembers? read? ts).map .sum
  | .product fs => (readMembers? read? fs).map .product
  | .power base exponent =>
    match read? base, read? exponent with
    | some b, some e => some (.pow b e)
    | _, _ => none

/-- Reads a text in which pieces are nested less deeply than `depth`. -/
def parseWithin? : Nat → List Char → Option (Formula Float)
  | 0, _ => none
  | depth + 1, cs => assemble? (parseWithin? depth) (Shape.ofText cs)

/-- The formula of a checked text, if it is one. -/
def parse? (cs : List Char) : Option (Formula Float) := parseWithin? (cs.length + 1) cs

/-- The texts looked at when reading a text in which pieces are nested less deeply than `depth`. -/
def visitedWithin : Nat → List Char → List (List Char)
  | 0, _ => []
  | depth + 1, cs => cs :: (Shape.ofText cs).pieces.flatMap (visitedWithin depth)

/-- The texts looked at when reading a checked text: each before its pieces, the pieces in order. -/
def visited (cs : List Char) : List (List Char) := visitedWithin (cs.length + 1) cs

theorem readMembers?_congr {f g : List Char → Option (Formula Float)}
    {ms : List (Polarity × List Char)} (h : ∀ u ∈ ms.map Prod.snd, f u = g u) :
    readMembers? f ms = readMembers? g ms := by
  induction ms with
  | nil => rfl
  | cons m ms ih =>
    obtain ⟨p, u⟩ := m
    simp only [List.map_cons, List.forall_mem_cons] at h
    simp only [readMembers?, h.1, ih h.2]

theorem assemble?_congr {f g : List Char → Option (Formula Float)} {s : Shape}
    (h : ∀ u ∈ s.pieces, f u = g u) : assemble? f s = assemble? g s := by
  cases s with
  | nothing => rfl
  | group inner => exact h inner (by simp [Shape.pieces])
  | var => rfl
  | number v => rfl
  | signed p rest => simp only [assemble?, h rest (by simp [Shape.pieces])]
  | call name argument => simp only [assemble?, h argument (by simp [Shape.pieces])]
  | sum ts => exact congrArg (Option.map Formula.sum) (readMembers?_congr h)
  | product fs => exact congrArg (Option.map Formula.product) (readMembers?_congr h)
  | power base exponent =>
    simp only [assemble?, h base (by simp [Shape.pieces]), h exponent (by simp [Shape.pieces])]

theorem parseWithin?_eq_of_length_lt {m n : Nat} {cs : List Char} (hm : cs.length < m)
    (hn : cs.length < n) : parseWithin? m cs = parseWithin? n cs := by
  induction m generalizing n cs with
  | zero => omega
  | succ m ih =>
    cases n with
    | zero => omega
    | succ n =>
      refine assemble?_congr fun u hu => ?_
      have := Shape.length_lt_of_mem_pieces hu
      exact ih (by omega) (by omega)

/-- **Reading follows the shape.** What a text reads as is its shape, put together from what its
pieces read as. -/
theorem parse?_eq (cs : List Char) : parse? cs = assemble? parse? (Shape.ofText cs) :=
  assemble?_congr fun u hu => by
    have := Shape.length_lt_of_mem_pieces hu
    exact parseWithin?_eq_of_length_lt this (by omega)

theorem visitedWithin_eq_of_length_lt {m n : Nat} {cs : List Char} (hm : cs.length < m)
    (hn : cs.length < n) : visitedWithin m cs = visitedWithin n cs := by
  induction m generalizing n cs with
  | zero => omega
  | succ m ih =>
    cases n with
    | zero => omega
    | succ n =>
      simp only [visitedWithin, List.flatMap_def]
      rw [List.map_congr_left fun u hu => ?_]
      have := Shape.length_lt_of_mem_pieces hu
      exact ih (by omega) (by omega)

theorem visited_eq (cs : List Char) :
    visited cs = cs :: (Shape.ofText cs).pieces.flatMap visited := by
  simp only [visited, visitedWithin, List.flatMap_def]
  rw [List.map_congr_left fun u hu => ?_]
  have := Shape.length_lt_of_mem_pieces hu
  exact visitedWithin_eq_of_length_lt this (by omega)

/-- A text without its blank characters. -/
def squeeze (text : String) : List Char := text.toList.filter fun c => !Text.isBlank c

end Reading

namespace Formula

open Reading

/-- The formula a player's text stands for; `invalid` if it is none. -/
def read (text : String) : Formula Float :=
  let cs := squeeze text
  match reject? cs with
  | some _ => invalid
  | none => (parse? cs).getD invalid

/-- The records made when a text is read: the texts looked at, and the reason if it is refused. -/
def readRecords (text : String) : List Record :=
  let cs := squeeze text
  match reject? cs with
  | some reason => [⟨.debug, s!"rejected expression '{text}': {reason.message}"⟩]
  | none =>
    ((visited cs).map fun u => ⟨.trace, "parsing: " ++ String.ofList u⟩) ++
      match parse? cs with
      | some _ => []
      | none => [⟨.debug, s!"expression '{text}' could not be parsed"⟩]

/-- The formula a player's text stands for, with the records of the reading. -/
def readLogged (text : String) : Logged (Formula Float) := ⟨read text, readRecords text⟩

end Formula

end CurvePuzzle
