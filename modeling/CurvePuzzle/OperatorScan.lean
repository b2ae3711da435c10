/-!
# Operators outside brackets

One scan from left to right decides which operator characters join two operands.

* `Scan` is what the scan knows at a place: how many brackets are open, whether an operand is
  awaited, whether anything was read before. A `+` or `-` where an operand is awaited is a sign
  glued to that operand and is not reported, except at the very start of the text.
* `reported` lists the operators found, `positions` those of a set with their byte positions.
* `split` cuts the text at them: what comes before the first, and every operator with what follows.
* `splitAtOperators_join`: the pieces and the operators, put together again, are the text.
-/

set_option autoImplicit false

namespace CurvePuzzle

/-- The operators of formulas. -/
def operatorChars : List Char := ['+', '-', '*', '/', '^']

/-- Is this the character of an operator? -/
def isOperator (c : Char) : Bool := operatorChars.contains c

/-- What a scan knows before it reads a character. -/
structure Scan where
  depth : Nat
  awaitsOperand : Bool
  isStart : Bool
  deriving DecidableEq, Repr

namespace Scan

/-- Nothing was read. -/
def start : Scan := ⟨0, true, true⟩

/-- What is known after one more character. -/
def next (s : Scan) (c : Char) : Scan :=
  if c == '(' then ⟨s.depth + 1, false, false⟩
  else if c == ')' then ⟨s.depth - 1, false, false⟩
  else if s.depth == 0 then ⟨0, isOperator c, false⟩
  else ⟨s.depth, s.awaitsOperand, false⟩

/-- Is the character a sign glued to the operand behind it? -/
def isGlued (s : Scan) (c : Char) : Bool :=
  s.awaitsOperand && !s.isStart && (c == '+' || c == '-')

/-- Is the character an operator that joins two operands? -/
def reports (s : Scan) (c : Char) : Bool := s.depth == 0 && isOperator c && !s.isGlued c

/-- The operators that the scan reports, in order. -/
def reported (s : Scan) : List Char → List Char
  | [] => []
  | c :: cs =>
    let rest := reported (s.next c) cs
    if s.reports c then c :: rest else rest

/-- The reported operators among `ops`, with the byte positions at which they stand when the text
starts at position `offset`. -/
def positions (ops : List Char) (s : Scan) (offset : Nat) : List Char → List (Nat × Char)
  | [] => []
  | c :: cs =>
    let rest := positions ops (s.next c) (offset + c.utf8Size) cs
    if s.reports c && ops.contains c then (offset, c) :: rest else rest

/-- The text cut at the reported operators among `ops`. -/
def split (ops : List Char) (s : Scan) : List Char → List Char × List (Char × List Char)
  | [] => ([], [])
  | c :: cs =>
    let (head, tail) := split ops (s.next c) cs
    if s.reports c && ops.contains c then ([], (c, head) :: tail) else (c :: head, tail)

/-- The text that the pieces behind a first one stand for, operators included. -/
def join (tail : List (Char × List Char)) : List Char := tail.flatMap fun m => m.1 :: m.2

theorem length_lt_join {tail : List (Char × List Char)} {m : Char × List Char} (h : m ∈ tail) :
    m.2.length < (join tail).length := by
  induction tail with
  | nil => exact absurd h List.not_mem_nil
  | cons p tail ih =>
    simp only [join, List.flatMap_cons, List.length_append, List.length_cons] at ih ⊢
    rcases List.mem_cons.1 h with rfl | h
    · omega
    · have := ih h
      omega

theorem isOperator_of_mem_reported {cs : List Char} {s : Scan} {c : Char}
    (h : c ∈ s.reported cs) : isOperator c = true := by
  induction cs generalizing s with
  | nil => simp [reported] at h
  | cons d cs ih =>
    simp only [reported] at h
    split at h
    · rename_i r
      rcases List.mem_cons.1 h with rfl | h
      · simp only [reports, Bool.and_eq_true] at r
        exact r.1.2
      · exact ih h
    · exact ih h

theorem split_operators (ops cs : List Char) (s : Scan) :
    (s.split ops cs).2.map Prod.fst = (s.reported cs).filter ops.contains := by
  induction cs generalizing s with
  | nil => rfl
  | cons c cs ih =>
    have tail := ih (s.next c)
    simp only [split, reported]
    by_cases r : s.reports c <;> by_cases m : c ∈ ops <;> simp_all

theorem split_join (ops cs : List Char) (s : Scan) :
    (s.split ops cs).1 ++ join (s.split ops cs).2 = cs := by
  induction cs generalizing s with
  | nil => rfl
  | cons c cs ih =>
    have tail := ih (s.next c)
    simp only [split]
    split <;> simp only [join, List.flatMap_cons, List.nil_append, List.cons_append,
      List.cons.injEq, true_and] <;> exact tail

end Scan

/-- The operators that join operands of the text, in order. -/
def joiningOperators (cs : List Char) : List Char := Scan.start.reported cs

/-- The operators among `ops` that join operands of the text, with their byte positions. -/
def operatorPositions (ops cs : List Char) : List (Nat × Char) := Scan.start.positions ops 0 cs

/-- The text before the first such operator, and every one with the text up to the next. -/
def splitAtOperators (ops cs : List Char) : List Char × List (Char × List Char) :=
  Scan.start.split ops cs

theorem splitAtOperators_operators (ops cs : List Char) :
    (splitAtOperators ops cs).2.map Prod.fst = (joiningOperators cs).filter ops.contains :=
  Scan.split_operators ops cs _

/-- **Nothing is lost.** The pieces and the operators, put together again, are the text. -/
theorem splitAtOperators_join (ops cs : List Char) :
    (splitAtOperators ops cs).1 ++ Scan.join (splitAtOperators ops cs).2 = cs :=
  Scan.split_join ops cs _

theorem splitAtOperators_length (ops cs : List Char) :
    (splitAtOperators ops cs).1.length + (Scan.join (splitAtOperators ops cs).2).length =
      cs.length := by
  rw [← List.length_append, splitAtOperators_join]

end CurvePuzzle
