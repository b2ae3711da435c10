import CurvePuzzle.Bracket
import CurvePuzzle.OperatorScan
import CurvePuzzle.Decimal.Reader
import CurvePuzzle.Formula.Basic

/-!
# The shape of a text

A text that may be a formula is looked at as a whole and found to be of one shape: a bracketed
group, the variable, a number, a signed group, a function call, a sum, a product, a power, or
nothing of the kind. The first that fits counts. A shape holds the shorter texts that remain to be
read.

* `Shape.ofText` is the decision.
* `Shape.pieces` are the texts that remain; `length_lt_of_mem_pieces`: each is shorter than the text
  it was taken from, so reading ends.
-/

set_option autoImplicit false

namespace CurvePuzzle

/-- What a text looks like, with the texts that remain to be read. -/
inductive Shape where
  | nothing
  | group (inner : List Char)
  | var
  | number (value : Float)
  | signed (sign : Polarity) (rest : List Char)
  | call (name : FunctionName) (argument : List Char)
  | sum (terms : List (Polarity × List Char))
  | product (factors : List (Polarity × List Char))
  | power (base exponent : List Char)

namespace Shape

/-- Is this an optional sign, and digits with at most one point? There may be no digit at all. -/
def isNumeral (cs : List Char) : Bool :=
  match (Decimal.splitSign cs).2.dropWhile Char.isDigit with
  | '.' :: cs => cs.all Char.isDigit
  | cs => cs.isEmpty

/-- A sign followed by one bracketed group, which keeps its brackets. -/
def signedGroup? : List Char → Option (Polarity × List Char)
  | c :: cs =>
    match Polarity.ofTermSign? c with
    | some p => if Bracket.isEnclosed cs then some (p, cs) else none
    | none => none
  | [] => none

/-- The name before a bracketed group at the end of the text, and what the group holds. -/
def splitCall? (cs : List Char) : Option (List Char × List Char) :=
  match cs.reverse with
  | ')' :: reversed =>
    (Bracket.opening? reversed).map fun k =>
      ((reversed.drop (k + 1)).reverse, (reversed.take k).reverse)
  | _ => none

/-- A function call: the name of one of the functions and its argument. -/
def call? (cs : List Char) : Option (FunctionName × List Char) :=
  match splitCall? cs with
  | some (name, argument) => (FunctionName.ofWord? name).map fun f => (f, argument)
  | none => none

/-- The members of a sum or product behind its operators. -/
def members (polarity? : Char → Option Polarity) (tail : List (Char × List Char)) :
    List (Polarity × List Char) :=
  tail.filterMap fun m => (polarity? m.1).map fun p => (p, m.2)

/-- The terms of a sum; a sign at the very start belongs to the first one. -/
def terms (cs : List Char) : List (Polarity × List Char) :=
  let (head, tail) := splitAtOperators ['+', '-'] cs
  let rest := members Polarity.ofTermSign? tail
  if head.isEmpty then rest else (.direct, head) :: rest

/-- The factors of a product. -/
def factors (cs : List Char) : List (Polarity × List Char) :=
  let (head, tail) := splitAtOperators ['*', '/'] cs
  (.direct, head) :: members Polarity.ofFactorSign? tail

/-- The shape that the operators of a text give it: the loosest of them decides. -/
def ofOperators (cs : List Char) : Shape :=
  let ops := joiningOperators cs
  if ops.any fun c => (Polarity.ofTermSign? c).isSome then sum (terms cs)
  else if ops.any fun c => (Polarity.ofFactorSign? c).isSome then product (factors cs)
  else if ops.isEmpty then nothing
  else
    let base := (splitAtOperators ['^'] cs).1
    power base (cs.drop (base.length + 1))

/-- The first shape that fits a text. -/
def ofText (cs : List Char) : Shape :=
  if cs.isEmpty then nothing
  else if Bracket.isEnclosed cs then group (cs.drop 1).dropLast
  else if cs == ['x'] || cs == ['X'] then var
  else if isNumeral cs then
    match Decimal.readFloat? cs with
    | some v => number v
    | none => nothing
  else
    match signedGroup? cs with
    | some (p, rest) => signed p rest
    | none =>
      match call? cs with
      | some (f, argument) => call f argument
      | none => ofOperators cs

/-- The texts that remain to be read, from left to right. -/
def pieces : Shape → List (List Char)
  | nothing => []
  | group inner => [inner]
  | var => []
  | number _ => []
  | signed _ rest => [rest]
  | call _ argument => [argument]
  | sum ts => ts.map Prod.snd
  | product fs => fs.map Prod.snd
  | power base exponent => [base, exponent]

theorem length_lt_of_mem_members {polarity? : Char → Option Polarity}
    {tail : List (Char × List Char)} {u : List Char}
    (h : u ∈ (members polarity? tail).map Prod.snd) :
    u.length < (Scan.join tail).length := by
  obtain ⟨⟨p, v⟩, hv, rfl⟩ := List.mem_map.1 h
  obtain ⟨⟨c, w⟩, hw, he⟩ := List.mem_filterMap.1 hv
  obtain ⟨q, -, hq⟩ := Option.map_eq_some_iff.1 he
  obtain rfl : w = v := (Prod.mk.inj hq).2
  exact Scan.length_lt_join hw

/-- A split has a tail when the scan reports one of the operators asked for. -/
theorem splitAtOperators_tail_ne_nil {ops cs : List Char} {c : Char}
    (h : c ∈ joiningOperators cs) (m : c ∈ ops) : (splitAtOperators ops cs).2 ≠ [] := by
  intro e
  have := splitAtOperators_operators ops cs
  rw [e] at this
  have hc : c ∈ (joiningOperators cs).filter ops.contains := by simp [h, m]
  rw [← this] at hc
  simp at hc

theorem head_length_lt {ops cs : List Char} {c : Char}
    (h : c ∈ joiningOperators cs) (m : c ∈ ops) :
    (splitAtOperators ops cs).1.length < cs.length := by
  have total := splitAtOperators_length ops cs
  match e : (splitAtOperators ops cs).2 with
  | [] => exact absurd e (splitAtOperators_tail_ne_nil h m)
  | p :: tail =>
    rw [e] at total
    have := Scan.length_lt_join (List.mem_cons_self (a := p) (l := tail))
    omega

/-- The operators of a text that is neither a sum nor a product are power marks. -/
theorem caret_mem_joiningOperators {cs : List Char} (some : joiningOperators cs ≠ [])
    (sum : ¬(joiningOperators cs).any (fun c => (Polarity.ofTermSign? c).isSome) = true)
    (product : ¬(joiningOperators cs).any (fun c => (Polarity.ofFactorSign? c).isSome) = true) :
    '^' ∈ joiningOperators cs := by
  obtain ⟨c, hc⟩ := List.exists_mem_of_ne_nil _ some
  have op := Scan.isOperator_of_mem_reported hc
  simp only [List.any_eq_true, not_exists, not_and] at sum product
  have noTerm := sum c hc
  have noFactor := product c hc
  simp only [isOperator, operatorChars, List.contains_eq_mem, List.mem_cons, List.not_mem_nil,
    or_false, decide_eq_true_eq] at op
  rcases op with rfl | rfl | rfl | rfl | rfl
  · exact absurd rfl noTerm
  · exact absurd rfl noTerm
  · exact absurd rfl noFactor
  · exact absurd rfl noFactor
  · exact hc

theorem length_lt_of_mem_terms {cs u : List Char}
    (any : (joiningOperators cs).any (fun c => (Polarity.ofTermSign? c).isSome) = true)
    (h : u ∈ (terms cs).map Prod.snd) : u.length < cs.length := by
  obtain ⟨c, hc, some⟩ := List.any_eq_true.1 any
  have m : c ∈ ['+', '-'] := by
    revert some; unfold Polarity.ofTermSign?; split <;> simp
  have total := splitAtOperators_length ['+', '-'] cs
  simp only [terms] at h
  split at h
  · have := length_lt_of_mem_members h
    omega
  · rw [List.map_cons, List.mem_cons] at h
    rcases h with rfl | h
    · exact head_length_lt hc m
    · have := length_lt_of_mem_members h
      omega

theorem length_lt_of_mem_factors {cs u : List Char}
    (any : (joiningOperators cs).any (fun c => (Polarity.ofFactorSign? c).isSome) = true)
    (h : u ∈ (factors cs).map Prod.snd) : u.length < cs.length := by
  obtain ⟨c, hc, some⟩ := List.any_eq_true.1 any
  have m : c ∈ ['*', '/'] := by
    revert some; unfold Polarity.ofFactorSign?; split <;> simp
  have total := splitAtOperators_length ['*', '/'] cs
  simp only [factors, List.map_cons, List.mem_cons] at h
  rcases h with rfl | h
  · exact head_length_lt hc m
  · have := length_lt_of_mem_members h
    omega

theorem length_lt_of_mem_ofOperators {cs u : List Char} (h : u ∈ (ofOperators cs).pieces) :
    u.length < cs.length := by
  simp only [ofOperators] at h
  split at h
  · rename_i any
    exact length_lt_of_mem_terms any h
  · rename_i noSum
    split at h
    · rename_i any
      exact length_lt_of_mem_factors any h
    · rename_i noProduct
      split at h
      · simp [pieces] at h
      · rename_i some
        have caret := caret_mem_joiningOperators (by simpa using some) noSum noProduct
        have base := head_length_lt caret (List.mem_singleton.2 rfl)
        simp only [pieces, List.mem_cons, List.not_mem_nil, or_false] at h
        rcases h with rfl | rfl
        · exact base
        · rw [List.length_drop]; omega

theorem length_lt_of_splitCall? {cs name argument : List Char}
    (h : splitCall? cs = some (name, argument)) : argument.length < cs.length := by
  unfold splitCall? at h
  split at h
  · rename_i reversed e
    obtain ⟨k, -, hk⟩ := Option.map_eq_some_iff.1 h
    obtain ⟨-, rfl⟩ := Prod.mk.inj hk
    have := congrArg List.length e
    simp only [List.length_reverse, List.length_cons, List.length_take] at this ⊢
    omega
  · simp at h

/-- **Reading shrinks.** Every text that remains to be read is shorter than the one it came
from. -/
theorem length_lt_of_mem_pieces {cs u : List Char} (h : u ∈ (ofText cs).pieces) :
    u.length < cs.length := by
  unfold ofText at h
  split at h
  · simp [pieces] at h
  rename_i nonempty
  have pos : 0 < cs.length := by
    cases cs with
    | nil => simp at nonempty
    | cons => simp
  split at h
  · simp only [pieces, List.mem_singleton] at h
    subst h
    simp only [List.length_dropLast, List.length_drop]; omega
  split at h
  · simp [pieces] at h
  split at h
  · split at h <;> simp [pieces] at h
  split at h
  · rename_i p rest e
    simp only [pieces, List.mem_singleton] at h
    subst h
    unfold signedGroup? at e
    split at e
    · split at e
      · split at e
        · obtain ⟨-, rfl⟩ := Prod.mk.inj (Option.some.inj e)
          simp
        · simp at e
      · simp at e
    · simp at e
  split at h
  · rename_i f argument e
    simp only [pieces, List.mem_singleton] at h
    subst h
    unfold call? at e
    split at e
    · rename_i name argument' split
      obtain ⟨g, -, hg⟩ := Option.map_eq_some_iff.1 e
      obtain ⟨-, rfl⟩ := Prod.mk.inj hg
      exact length_lt_of_splitCall? split
    · simp at e
  · exact length_lt_of_mem_ofOperators h

end Shape

end CurvePuzzle
