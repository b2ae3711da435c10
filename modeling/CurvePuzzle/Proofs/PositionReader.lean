import CurvePuzzle.Proofs.BalancedPieces
import CurvePuzzle.Proofs.Slices

/-!
# Reading by positions

To read a text in place is to look for positions of brackets and operators, and to slice the text
between them. Each of these steps has a condition. Here is the reader of formulas with its
positions, in bytes, and with the conditions tested: a step whose condition fails is a `Fault`, and
so is the reading of a text that is not shorter than the one it was taken from, or not balanced.

* `partner?`, `closeAt?` and `openAt?` count open groups in a number that must not fall below zero.
  `closeAt?_eq` and `openAt?_eq`: it never does.
* `shape` decides the shape of a text. `shape_eq`: without a fault, and as `Shape.ofText` does, if
  the text consists of single bytes.
* `read` reads a text. `read_has_no_fault`: no text leads to a fault.
-/

set_option autoImplicit false

namespace CurvePuzzle.PositionReader

/-! ## Searches for brackets -/

/-- How far ahead the bracket `down` lies that brings the number of open groups to zero, `up`
raising it and `down` lowering it. -/
def partner? (up down : Char) : Nat → List Char → Except Fault (Option Nat)
  | _, [] => .ok none
  | count, c :: cs =>
    if c == up then (partner? up down (count + 1) cs).map fun k => k.map (· + 1)
    else if c == down then
      if count = 0 then .error .countBelowZero
      else if count - 1 = 0 then .ok (some 0)
      else (partner? up down (count - 1) cs).map fun k => k.map (· + 1)
    else (partner? up down count cs).map fun k => k.map (· + 1)

/-- The position of the bracket that closes the one at `index`. -/
def closeAt? (cs : List Char) (index : Nat) : Except Fault (Option Nat) :=
  match cs[index]? with
  | none => .error (.misuse (.outOfRange index cs.length))
  | some c =>
    if c == '(' then (partner? '(' ')' 0 (cs.drop index)).map fun k => k.map (index + ·)
    else .error (.misuse (.notOpening index c))

/-- The position of the bracket that opens the group closed at `index`, looked for backwards. -/
def openAt? (cs : List Char) (index : Nat) : Except Fault (Option Nat) :=
  match cs[index]? with
  | none => .error (.misuse (.outOfRange index cs.length))
  | some c =>
    if c == ')' then
      (partner? ')' '(' 0 (cs.take (index + 1)).reverse).map fun k => k.map (index - ·)
    else .error (.misuse (.notClosing index c))

/-- As long as a group is open, there is no fault. -/
theorem partner?_eq (up down : Char) (count : Nat) (cs : List Char) :
    partner? up down (count + 1) cs = .ok (Bracket.partner? up down count cs) := by
  induction cs generalizing count with
  | nil => rfl
  | cons c cs ih =>
    rw [partner?]
    simp only [Bracket.partner?]
    split
    · rw [ih]
      rfl
    · split
      · rw [if_neg (Nat.succ_ne_zero count), Nat.add_sub_cancel]
        cases count with
        | zero => rfl
        | succ count =>
          rw [if_neg (Nat.succ_ne_zero count), ih]
          rfl
      · rw [ih]
        rfl

/-- A search that starts at a bracket opens a group there. -/
theorem partner?_start {up down : Char} (cs : List Char) :
    partner? up down 0 (up :: cs) = .ok ((Bracket.partner? up down 0 cs).map (· + 1)) := by
  rw [partner?, if_pos (beq_self_eq_true up), partner?_eq]
  rfl

/-- **The search for a closing bracket** has no other fault than its misuse. -/
theorem closeAt?_eq (cs : List Char) (index : Nat) :
    closeAt? cs index = (Bracket.close? cs index).mapError .misuse := by
  unfold closeAt? Bracket.close?
  cases found : cs[index]? with
  | none => rfl
  | some c =>
    simp only
    split
    · rename_i bracket
      obtain ⟨small, rfl⟩ := List.getElem?_eq_some_iff.1 found
      rw [List.drop_eq_getElem_cons small, eq_of_beq bracket, partner?_start]
      simp only [Except.map, Except.mapError, Bracket.closing?, Option.map_map]
      congr 2
      funext k
      simp only [Function.comp_apply]
      omega
    · rfl

/-- **The search for an opening bracket** has no other fault than its misuse. -/
theorem openAt?_eq (cs : List Char) (index : Nat) :
    openAt? cs index = (Bracket.open? cs index).mapError .misuse := by
  unfold openAt? Bracket.open?
  cases found : cs[index]? with
  | none => rfl
  | some c =>
    simp only
    split
    · rename_i bracket
      obtain ⟨small, rfl⟩ := List.getElem?_eq_some_iff.1 found
      rw [List.take_succ_eq_append_getElem small, List.reverse_append, eq_of_beq bracket]
      rw [List.reverse_singleton, List.singleton_append, partner?_start]
      simp only [Except.map, Except.mapError, Bracket.opening?, Option.map_map]
      congr 2
      funext k
      simp only [Function.comp_apply]
      omega
    · rfl

/-! ## Shapes -/

/-- The bytes of a text. -/
def bytes (cs : List Char) : List Char := Bracket.units (String.ofList cs)

/-- Is the whole text one group? -/
def isEnclosed (cs : List Char) : Except Fault Bool :=
  if cs.head? == some '(' then do
    let close ← closeAt? (bytes cs) 0
    let last ← lastPosition cs
    return close == some last
  else return false

/-- A sign followed by one bracketed group. -/
def signedGroup? (cs : List Char) : Except Fault (Option (Polarity × List Char)) :=
  match cs.head?.bind Polarity.ofTermSign? with
  | none => return none
  | some p => do
    let rest ← slice cs 1 (byteLength cs)
    if ← isEnclosed rest then return some (p, rest) else return none

/-- A function call. -/
def call? (cs : List Char) : Except Fault (Option (FunctionName × List Char)) :=
  if cs.getLast? == some ')' then do
    let last ← lastPosition cs
    match ← openAt? (bytes cs) last with
    | none => return none
    | some place =>
      if place = 0 then return none
      else do
        let name ← slice cs 0 place
        match FunctionName.ofWord? name with
        | none => return none
        | some f => return some (f, ← slice cs (place + 1) last)
  else return none

/-- The terms of a sum. -/
def terms (cs : List Char) : Except Fault (List (Polarity × List Char)) := do
  let ops := operatorPositions ['+', '-'] cs
  let (head, tail) ← splitAtPositions cs ops
  let rest := Shape.members Polarity.ofTermSign? tail
  return if ops.head?.any fun m => m.1 == 0 then rest else (.direct, head) :: rest

/-- The factors of a product. -/
def factors (cs : List Char) : Except Fault (List (Polarity × List Char)) := do
  let (head, tail) ← splitAtPositions cs (operatorPositions ['*', '/'] cs)
  return (.direct, head) :: Shape.members Polarity.ofFactorSign? tail

/-- The base and the exponent of a power with these operators. -/
def power (cs : List Char) (ops : List (Nat × Char)) : Except Fault Shape :=
  if ops.any fun m => m.2 != '^' then return .nothing
  else
    match ops with
    | [] => .error .noOperator
    | (first, _) :: _ => do
      let base ← slice cs 0 first
      let exponent ← slice cs (first + 1) (byteLength cs)
      return .power base exponent

/-- The shape that the operators of a text give it. -/
def ofOperators (cs : List Char) : Except Fault Shape :=
  let ops := operatorPositions operatorChars cs
  if ops.any fun m => (Polarity.ofTermSign? m.2).isSome then return .sum (← terms cs)
  else if ops.any fun m => (Polarity.ofFactorSign? m.2).isSome then
    return .product (← factors cs)
  else if ops.isEmpty then return .nothing
  else power cs ops

/-- The first shape that fits a text. -/
def shape (cs : List Char) : Except Fault Shape := do
  if cs.isEmpty then return .nothing
  else if ← isEnclosed cs then return .group (← slice cs 1 (← lastPosition cs))
  else if cs == ['x'] || cs == ['X'] then return .var
  else if Shape.isNumeral cs then
    match Decimal.readFloat? cs with
    | some v => return .number v
    | none => return .nothing
  else
    match ← signedGroup? cs with
    | some (p, rest) => return .signed p rest
    | none =>
      match ← call? cs with
      | some (f, argument) => return .call f argument
      | none => ofOperators cs

/-! ## The shape without a fault -/

section

variable {cs : List Char}

theorem isEnclosed_eq (h : IsAscii cs) : isEnclosed cs = .ok (Bracket.isEnclosed cs) := by
  cases cs with
  | nil => rfl
  | cons c cs =>
    by_cases bracket : c = '('
    · subst bracket
      have close : closeAt? (bytes ('(' :: cs)) 0 =
          .ok ((Bracket.closing? cs).map (0 + 1 + ·)) := by
        rw [bytes, h.units_eq, closeAt?_eq]
        rfl
      have last : lastPosition ('(' :: cs) = .ok cs.length := by
        rw [lastPosition_eq (List.cons_ne_nil _ _), h.byteLength_eq, List.length_cons,
          Nat.add_sub_cancel]
      unfold isEnclosed
      rw [close, last]
      simp only [List.head?_cons, beq_self_eq_true, if_true, bind, Except.bind, pure, Except.pure,
        Bracket.isEnclosed]
      cases Bracket.closing? cs with
      | none => rfl
      | some k =>
        have comm : 0 + 1 + k = k + 1 := by omega
        simp only [Option.map_some, comm]
        rfl
    · have none : Bracket.isEnclosed (c :: cs) = false := by
        rw [← Bool.not_eq_true, Bracket.isEnclosed_iff]
        rintro ⟨u, e, -⟩
        exact bracket (List.cons.inj e).1
      have other : ((c :: cs).head? == some '(') = false := by simpa using bracket
      unfold isEnclosed
      rw [other, none]
      rfl

theorem signedGroup?_eq (h : IsAscii cs) : signedGroup? cs = .ok (Shape.signedGroup? cs) := by
  cases cs with
  | nil => rfl
  | cons c cs =>
    obtain ⟨single, rest⟩ := List.forall_mem_cons.1 h
    have behind : slice (c :: cs) 1 (byteLength (c :: cs)) = .ok cs := slice_behind [] single cs
    unfold signedGroup? Shape.signedGroup?
    simp only [List.head?_cons, Option.bind_some]
    cases Polarity.ofTermSign? c with
    | none => rfl
    | some p =>
      simp only
      rw [behind]
      simp only [bind, Except.bind]
      rw [isEnclosed_eq rest]
      cases Bracket.isEnclosed cs <;> rfl

/-- The search from the last bracket finds the bracket before the argument. -/
theorem openAt?_last (before : List Char) :
    openAt? (before ++ [')']) before.length =
      .ok ((Bracket.opening? before.reverse).map (before.length - 1 - ·)) := by
  rw [openAt?_eq, Bracket.open?, List.getElem?_concat_length]
  simp [Except.mapError]

/-- The search for the bracket before the argument of a call. -/
theorem openAt?_call (name : List Char) {argument : List Char}
    (hu : Bracket.balanced argument = true) :
    openAt? (name ++ '(' :: argument ++ [')']) (name ++ '(' :: argument).length =
      .ok (some name.length) := by
  have found : Bracket.opening? (name ++ '(' :: argument).reverse = some argument.length := by
    refine Bracket.opening?_eq_some_iff.2 ⟨argument.reverse, name.reverse, ?_, ?_, ?_⟩
    · simp
    · exact List.length_reverse
    · rw [List.reverse_reverse]
      exact hu
  have place : (name ++ '(' :: argument).length - 1 - argument.length = name.length := by
    rw [List.length_append, List.length_cons]
    omega
  rw [openAt?_last, found, Option.map_some, place]

theorem slices_of_call {name argument : List Char}
    (h : IsAscii (name ++ '(' :: argument ++ [')'])) :
    slice (name ++ '(' :: argument ++ [')']) 0 name.length = .ok name ∧
      slice (name ++ '(' :: argument ++ [')']) (name.length + 1)
        (name ++ '(' :: argument).length = .ok argument := by
  have nameLength : byteLength name = name.length := by
    refine (h.of_infix ⟨[], '(' :: argument ++ [')'], ?_⟩).byteLength_eq
    simp
  have argumentLength : byteLength argument = argument.length := by
    refine (h.of_infix ⟨name ++ ['('], [')'], ?_⟩).byteLength_eq
    simp
  have first := slice_prefix name ('(' :: argument ++ [')'])
  have inner := slice_append (name ++ ['(']) argument [')']
  have start : byteLength (name ++ ['(']) = name.length + 1 := by
    rw [byteLength_append, nameLength]
    rfl
  have stop : name.length + 1 + byteLength argument = (name ++ '(' :: argument).length := by
    rw [argumentLength, List.length_append, List.length_cons]
    omega
  rw [nameLength] at first
  rw [start, stop] at inner
  rw [List.append_assoc]
  refine ⟨first, ?_⟩
  simpa using inner

/-- What stands before a bracketed group at the end of the text is looked up as a name. -/
theorem call?_group {name argument : List Char} (h : IsAscii (name ++ '(' :: argument ++ [')']))
    (hu : Bracket.balanced argument = true) :
    call? (name ++ '(' :: argument ++ [')']) =
      .ok ((FunctionName.ofWord? name).map fun f => (f, argument)) := by
  obtain ⟨first, inner⟩ := slices_of_call h
  unfold call?
  rw [h.lastPosition_concat, bytes, h.units_eq]
  simp only [List.getLast?_concat, beq_self_eq_true, if_true, bind, Except.bind]
  rw [openAt?_call name hu]
  by_cases nameless : name = []
  · rw [nameless]
    rfl
  · simp only [List.length_eq_zero_iff, nameless, if_false]
    rw [first]
    simp only
    cases FunctionName.ofWord? name with
    | none => rfl
    | some f =>
      simp only
      rw [inner]
      rfl

/-- There is no call without a bracketed group at the end. -/
theorem call?_none (h : IsAscii cs) (split : Shape.splitCall? cs = none) : call? cs = .ok none := by
  by_cases empty : cs = []
  · rw [empty]
    rfl
  obtain ⟨before, c, rfl⟩ : ∃ before c, cs = before ++ [c] :=
    ⟨_, _, (List.dropLast_concat_getLast empty).symm⟩
  unfold call?
  by_cases close : c = ')'
  · subst close
    have unopened : Bracket.opening? before.reverse = none := by
      simpa [Shape.splitCall?] using split
    rw [h.lastPosition_concat, bytes, h.units_eq]
    simp only [List.getLast?_concat, beq_self_eq_true, if_true, bind, Except.bind]
    rw [openAt?_last, unopened]
    rfl
  · have other : ((before ++ [c]).getLast? == some ')') = false := by simpa using close
    rw [other]
    rfl

theorem call?_eq (h : IsAscii cs) : call? cs = .ok (Shape.call? cs) := by
  unfold Shape.call?
  cases split : Shape.splitCall? cs with
  | none => exact call?_none h split
  | some m =>
    obtain ⟨rfl, hu⟩ := Shape.splitCall?_eq_some_iff.1 split
    have text : m.1 ++ '(' :: (m.2 ++ [')']) = m.1 ++ '(' :: m.2 ++ [')'] := by simp
    rw [text] at h ⊢
    exact call?_group h hu

/-- The first operator stands behind the first piece. -/
theorem first_position (ops cs : List Char) :
    ((operatorPositions ops cs).head?.map Prod.fst).getD (byteLength cs) =
      byteLength (splitAtOperators ops cs).1 := by
  have first := Scan.head?_positions ops .start 0 cs
  rw [Nat.zero_add, Nat.zero_add] at first
  exact first

theorem terms_eq (ne : cs ≠ []) : terms cs = .ok (Shape.terms cs) := by
  have first := first_position ['+', '-'] cs
  have leading : ((operatorPositions ['+', '-'] cs).head?.any fun m => m.1 == 0) =
      (splitAtOperators ['+', '-'] cs).1.isEmpty := by
    rw [Bool.eq_iff_iff, List.isEmpty_iff, ← byteLength_eq_zero_iff, ← first]
    cases (operatorPositions ['+', '-'] cs).head? with
    | none => simp [byteLength_eq_zero_iff, ne]
    | some m => simp
  unfold terms
  simp only [splitAtPositions_eq, bind, Except.bind, pure, Except.pure, leading]
  rfl

theorem factors_eq (cs : List Char) : factors cs = .ok (Shape.factors cs) := by
  unfold factors
  rw [splitAtPositions_eq]
  rfl

theorem map_snd_positions (cs : List Char) :
    (operatorPositions operatorChars cs).map Prod.snd = joiningOperators cs := by
  refine (Scan.map_snd_positions operatorChars .start 0 cs).trans (List.filter_eq_self.2 ?_)
  exact fun c hc => Scan.isOperator_of_mem_reported hc

/-- Where nothing else is reported, the power marks are all operators. -/
theorem positions_of_carets (carets : ∀ c ∈ joiningOperators cs, c = '^') :
    operatorPositions operatorChars cs = operatorPositions ['^'] cs := by
  refine Scan.positions_congr (fun c hc => ?_) 0
  rw [carets c hc]
  rfl

theorem power_eq (some : joiningOperators cs ≠ []) (carets : ∀ c ∈ joiningOperators cs, c = '^') :
    power cs (operatorPositions operatorChars cs) =
      .ok (.power (splitAtOperators ['^'] cs).1
        (cs.drop ((splitAtOperators ['^'] cs).1.length + 1))) := by
  have marks := map_snd_positions cs
  have first := first_position ['^'] cs
  rw [← positions_of_carets carets] at first
  have only : ((operatorPositions operatorChars cs).any fun m => m.2 != '^') = false := by
    rw [List.any_eq_false]
    intro m hm
    have caret := carets m.2 (by rw [← marks]; exact List.mem_map_of_mem hm)
    simp [caret]
  obtain ⟨c, hc⟩ := List.exists_mem_of_ne_nil _ some
  have cut := Shape.splitAtOperators_tail_ne_nil (carets c hc ▸ hc) (List.mem_singleton.2 rfl)
  obtain ⟨base, exponent, tail, e, text⟩ := Shape.exists_power_cut cut
  unfold power
  rw [only, if_neg Bool.false_ne_true]
  cases ops : operatorPositions operatorChars cs with
  | nil =>
    rw [ops] at marks
    exact absurd marks.symm some
  | cons m ops' =>
    rw [ops, e] at first
    have place : m.1 = byteLength base := first
    have front := slice_prefix base ('^' :: (exponent ++ Scan.join tail))
    have behind := slice_behind base (c := '^') rfl (exponent ++ Scan.join tail)
    rw [← text] at front behind
    have rest : cs.drop (base.length + 1) = exponent ++ Scan.join tail := by
      rw [text, Shape.drop_mark]
    simp only [place, e, rest]
    rw [front, behind]
    rfl

theorem ofOperators_eq (ne : cs ≠ []) : ofOperators cs = .ok (Shape.ofOperators cs) := by
  have ops := map_snd_positions cs
  have any (f : Char → Bool) :
      ((operatorPositions operatorChars cs).any fun m => f m.2) = (joiningOperators cs).any f := by
    rw [← ops, List.any_map]
    rfl
  have none : (operatorPositions operatorChars cs).isEmpty = (joiningOperators cs).isEmpty := by
    rw [← ops, List.isEmpty_map]
  unfold ofOperators Shape.ofOperators
  simp only [any fun c => (Polarity.ofTermSign? c).isSome,
    any fun c => (Polarity.ofFactorSign? c).isSome, none]
  by_cases sum : ((joiningOperators cs).any fun c => (Polarity.ofTermSign? c).isSome) = true
  · rw [if_pos sum, if_pos sum, terms_eq ne]
    rfl
  rw [if_neg sum, if_neg sum]
  by_cases product : ((joiningOperators cs).any fun c => (Polarity.ofFactorSign? c).isSome) = true
  · rw [if_pos product, if_pos product, factors_eq]
    rfl
  rw [if_neg product, if_neg product]
  by_cases nothing : (joiningOperators cs).isEmpty = true
  · rw [if_pos nothing, if_pos nothing]
    rfl
  rw [if_neg nothing, if_neg nothing]
  refine power_eq (by simpa using nothing) fun c hc => ?_
  refine Shape.eq_caret (Scan.isOperator_of_mem_reported hc) ?_ ?_
  · exact fun m => sum (Shape.any_ofTermSign?.2 ⟨c, hc, m⟩)
  · exact fun m => product (Shape.any_ofFactorSign?.2 ⟨c, hc, m⟩)

/-- The slice between the brackets of a group. -/
theorem slice_group (enclosed : Bracket.isEnclosed cs = true) :
    ∃ last, lastPosition cs = .ok last ∧ slice cs 1 last = .ok (cs.drop 1).dropLast := by
  obtain ⟨u, rfl, -⟩ := Bracket.isEnclosed_iff.1 enclosed
  have last : lastPosition ('(' :: (u ++ [')'])) = .ok (1 + byteLength u) := by
    rw [lastPosition_eq (List.cons_ne_nil _ _), byteLength_cons, byteLength_append]
    rfl
  refine ⟨_, last, (slice_append ['('] u [')']).trans ?_⟩
  simp

/-- **The shape of a text of single bytes is decided without a fault.** -/
theorem shape_eq (h : IsAscii cs) : shape cs = .ok (Shape.ofText cs) := by
  unfold shape Shape.ofText
  by_cases empty : cs.isEmpty = true
  · rw [if_pos empty, if_pos empty]
    rfl
  have ne : cs ≠ [] := by simpa using empty
  rw [if_neg empty, if_neg empty, isEnclosed_eq h, signedGroup?_eq h, call?_eq h]
  simp only [bind, Except.bind, pure, Except.pure]
  by_cases enclosed : Bracket.isEnclosed cs = true
  · obtain ⟨last, place, inner⟩ := slice_group enclosed
    rw [if_pos enclosed, if_pos enclosed, place]
    simp only
    rw [inner]
  rw [if_neg enclosed, if_neg enclosed]
  by_cases var : (cs == ['x'] || cs == ['X']) = true
  · rw [if_pos var, if_pos var]
  rw [if_neg var, if_neg var]
  by_cases number : Shape.isNumeral cs = true
  · rw [if_pos number, if_pos number]
    cases Decimal.readFloat? cs <;> rfl
  rw [if_neg number, if_neg number]
  cases Shape.signedGroup? cs with
  | some m => rfl
  | none =>
    cases Shape.call? cs with
    | some m => rfl
    | none => exact ofOperators_eq ne

end

/-! ## Reading -/

/-- The members of a sum or product, each read. -/
def readMembers (read : List Char → Except Fault (Option (Formula Float))) :
    List (Polarity × List Char) → Except Fault (Option (List (Polarity × Formula Float)))
  | [] => return some []
  | (p, u) :: ms => do
    let e ← read u
    let rest ← readMembers read ms
    return match e, rest with
      | some e, some rest => some ((p, e) :: rest)
      | _, _ => none

/-- The formula of a shape, its pieces being read from left to right. -/
def assemble (read : List Char → Except Fault (Option (Formula Float))) :
    Shape → Except Fault (Option (Formula Float))
  | .nothing => return none
  | .group inner => read inner
  | .var => return some .var
  | .number v => return some (.const v)
  | .signed p rest => return (← read rest).map fun e => .sum [(p, e)]
  | .call f argument => return (← read argument).map (.func f)
  | .sum ts => return (← readMembers read ts).map .sum
  | .product fs => return (← readMembers read fs).map .product
  | .power base exponent => do
    let b ← read base
    let e ← read exponent
    return match b, e with
      | some b, some e => some (.pow b e)
      | _, _ => none

/-- Reads a checked text. A piece is read only if it is shorter and balanced. -/
def parse (cs : List Char) : Except Fault (Option (Formula Float)) := do
  let found ← shape cs
  assemble (fun u =>
    if _shorter : u.length < cs.length then
      if Bracket.balanced u then parse u else .error (.unbalanced u)
    else .error (.notShorter u)) found
termination_by cs.length

/-- Reads a player's text. -/
def read (text : String) : Except Fault (Formula Float) :=
  let cs := Reading.squeeze text
  match Reading.reject? cs with
  | some _ => return .invalid
  | none => return (← parse cs).getD .invalid

theorem readMembers_eq {f : List Char → Except Fault (Option (Formula Float))}
    {g : List Char → Option (Formula Float)} {ms : List (Polarity × List Char)}
    (h : ∀ u ∈ ms.map Prod.snd, f u = .ok (g u)) :
    readMembers f ms = .ok (Reading.readMembers? g ms) := by
  induction ms with
  | nil => rfl
  | cons m ms ih =>
    obtain ⟨p, u⟩ := m
    rw [List.map_cons, List.forall_mem_cons] at h
    rw [readMembers, Reading.readMembers?, h.1, ih h.2]
    rfl

/-- A shape is assembled without a fault if its pieces are read without one. -/
theorem assemble_eq {f : List Char → Except Fault (Option (Formula Float))}
    {g : List Char → Option (Formula Float)} {s : Shape}
    (h : ∀ u ∈ s.pieces, f u = .ok (g u)) : assemble f s = .ok (Reading.assemble? g s) := by
  cases s with
  | nothing => rfl
  | group inner => exact h inner (List.mem_singleton.2 rfl)
  | var => rfl
  | number v => rfl
  | signed p rest =>
    rw [assemble, h rest (List.mem_singleton.2 rfl)]
    rfl
  | call name argument =>
    rw [assemble, h argument (List.mem_singleton.2 rfl)]
    rfl
  | sum ts =>
    rw [assemble, readMembers_eq h]
    rfl
  | product fs =>
    rw [assemble, readMembers_eq h]
    rfl
  | power base exponent =>
    obtain ⟨first, second⟩ := List.forall_mem_cons.1 h
    rw [assemble, first, second exponent (List.mem_singleton.2 rfl)]
    rfl

/-- **A balanced text of single bytes is read without a fault**, and all that is read on the way is
shorter and balanced. -/
theorem parse_eq {cs : List Char} (ascii : IsAscii cs) (balanced : Bracket.balanced cs = true) :
    parse cs = .ok (Reading.parse? cs) := by
  induction n : cs.length using Nat.strongRecOn generalizing cs with
  | ind n ih =>
    rw [parse, shape_eq ascii, Reading.parse?_eq]
    refine assemble_eq fun u hu => ?_
    have shorter := Shape.length_lt_of_mem_pieces hu
    have matched := Shape.balanced_of_mem_pieces balanced hu
    have single := ascii.of_infix (Shape.infix_of_mem_pieces (Shape.fits_ofText cs) hu)
    rw [dif_pos shorter, if_pos matched]
    exact ih u.length (by omega) single matched rfl

/-- **No text leads to a fault.** Whatever text is read by positions, every slice lies in its text,
in order and between characters, every search for a bracket starts at one and counts no group that
was not begun, and every text that remains to be read is shorter and balanced. The result is that of
`Formula.read`, whose own recursion is as well-founded. -/
theorem read_has_no_fault (text : String) :
    read text = .ok (Formula.read text) ∧
      (Reading.reject? (Reading.squeeze text) = none →
        ∀ u ∈ Reading.visited (Reading.squeeze text), Bracket.balanced u = true ∧
          ∀ v ∈ (Shape.ofText u).pieces, v.length < u.length ∧ Bracket.balanced v = true) := by
  constructor
  · unfold read Formula.read
    simp only
    cases checked : Reading.reject? (Reading.squeeze text) with
    | some reason => rfl
    | none =>
      simp only
      have accepted := reject?_eq_none_iff.1 checked
      rw [parse_eq (Reading.isAscii_of_accepted accepted) accepted.balanced]
      rfl
  · intro checked u hu
    have accepted := reject?_eq_none_iff.1 checked
    have balanced := Reading.balanced_of_mem_visited accepted.balanced hu
    refine ⟨balanced, fun v hv => ?_⟩
    exact ⟨Shape.length_lt_of_mem_pieces hv, Shape.balanced_of_mem_pieces balanced hv⟩

/-- A sign before a group passes the checks, and is read through three texts, the group with and
without its brackets being the pieces. -/
theorem signed_group_has_no_fault :
    Reading.reject? (Reading.squeeze "- (x)") = none ∧
      read "- (x)" = .ok (.sum [(.inverse, .var)]) ∧
        Reading.visited (Reading.squeeze "- (x)") =
          [['-', '(', 'x', ')'], ['(', 'x', ')'], ['x']] ∧
            ∀ u ∈ Reading.visited (Reading.squeeze "- (x)"), Bracket.balanced u = true := by
  have checked : Reading.reject? (Reading.squeeze "- (x)") = none := by decide
  obtain ⟨result, pieces⟩ := read_has_no_fault "- (x)"
  refine ⟨checked, ?_, ?_, fun u hu => (pieces checked u hu).1⟩
  · rw [result]
    rfl
  · rfl

end CurvePuzzle.PositionReader
