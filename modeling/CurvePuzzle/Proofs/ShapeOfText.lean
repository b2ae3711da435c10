import CurvePuzzle.Proofs.Numeral

/-!
# Which shape fits a text

* `call?_eq_some_iff`, `signedGroup?_eq_some_iff`: function calls and signed groups, said without
  the searches for brackets.
* `ofText_group`, `ofText_number`, `ofText_call`, `ofText_signed`: texts of these forms have that
  shape.
* `ofText_eq_ofOperators`: where operators join operands, they decide, unless the text is a signed
  numeral or a signed group.
* `fits_ofText`: what is known of a text from its shape; `infix_of_mem_pieces`: the texts that
  remain to be read stand in it.
-/

set_option autoImplicit false

namespace CurvePuzzle.Shape

/-! ## Calls and signed groups -/

theorem splitCall?_eq_some_iff {cs name argument : List Char} :
    splitCall? cs = some (name, argument) ↔
      cs = name ++ '(' :: (argument ++ [')']) ∧ Bracket.balanced argument = true := by
  unfold splitCall?
  constructor
  · intro h
    split at h
    · rename_i reversed e
      obtain ⟨k, hk, parts⟩ := Option.map_eq_some_iff.1 h
      obtain ⟨u, v, rfl, rfl, hu⟩ := Bracket.opening?_eq_some_iff.1 hk
      simp only [Prod.mk.injEq, List.take_left', List.drop_append] at parts
      obtain ⟨rfl, rfl⟩ := parts
      refine ⟨?_, hu⟩
      rw [← List.reverse_reverse cs, e]
      simp
    · cases h
  · rintro ⟨rfl, ha⟩
    have reversed : (name ++ '(' :: (argument ++ [')'])).reverse =
        ')' :: (argument.reverse ++ '(' :: name.reverse) := by simp
    have hk : Bracket.opening? (argument.reverse ++ '(' :: name.reverse) =
        some argument.reverse.length :=
      Bracket.opening?_eq_some_iff.2 ⟨_, _, rfl, rfl, by rwa [List.reverse_reverse]⟩
    rw [reversed]
    simp [hk, List.drop_append]

theorem eq_word_of_ofWord? {cs : List Char} {f : FunctionName}
    (h : FunctionName.ofWord? cs = some f) : cs = f.word :=
  (eq_of_beq (List.find?_some (p := fun f : FunctionName => f.word == cs) h)).symm

/-- **A call** is the name of a function before a bracketed group. -/
theorem call?_eq_some_iff {cs argument : List Char} {f : FunctionName} :
    call? cs = some (f, argument) ↔
      cs = f.word ++ '(' :: (argument ++ [')']) ∧ Bracket.balanced argument = true := by
  unfold call?
  constructor
  · intro h
    split at h
    · rename_i name argument' e
      obtain ⟨g, hg, parts⟩ := Option.map_eq_some_iff.1 h
      obtain ⟨rfl, rfl⟩ := Prod.mk.inj parts
      obtain rfl := eq_word_of_ofWord? hg
      exact splitCall?_eq_some_iff.1 e
    · cases h
  · intro h
    rw [splitCall?_eq_some_iff.2 h]
    simp

theorem signedGroup?_eq_some_iff {cs rest : List Char} {p : Polarity} :
    signedGroup? cs = some (p, rest) ↔
      cs = p.termSign :: rest ∧ Bracket.isEnclosed rest = true := by
  constructor
  · intro h
    unfold signedGroup? at h
    split at h
    · split at h
      · rename_i q hq
        split at h
        · rename_i enclosed
          obtain ⟨rfl, rfl⟩ := Prod.mk.inj (Option.some.inj h)
          exact ⟨by rw [Polarity.ofTermSign?_eq_some_iff.1 hq], enclosed⟩
        · cases h
      · cases h
    · cases h
  · rintro ⟨rfl, enclosed⟩
    simp [signedGroup?, enclosed]

/-! ## What the tests before the operators exclude -/

/-- Is this a character of an unsigned numeral? -/
def isNumeralChar (c : Char) : Bool := c.isDigit || c == '.'

theorem isNumeral_chars {cs : List Char} (h : isNumeral cs = true) :
    ∀ c ∈ (Decimal.splitSign cs).2, isNumeralChar c = true := by
  unfold isNumeral at h
  generalize (Decimal.splitSign cs).2 = digits at h ⊢
  intro c hc
  rw [← List.takeWhile_append_dropWhile (p := Char.isDigit) (l := digits)] at hc
  simp only [isNumeralChar, Bool.or_eq_true, beq_iff_eq]
  rcases List.mem_append.1 hc with hc | hc
  · exact .inl (List.all_eq_true.1 List.all_takeWhile c hc)
  · split at h
    · rename_i ds e
      rw [e] at hc
      rcases List.mem_cons.1 hc with rfl | hc
      · exact .inr rfl
      · exact .inl (List.all_eq_true.1 h c hc)
    · rw [List.isEmpty_iff.1 h] at hc
      cases hc

theorem isPlain_of_isNumeralChar {c : Char} (h : isNumeralChar c = true) :
    Scan.isPlain c = true := by
  simp only [isNumeralChar, Bool.or_eq_true, beq_iff_eq] at h
  rcases h with h | rfl
  · exact Numeral.isPlain_of_isDigit h
  · rfl

theorem joins_of_isEnclosed {s : Scan} {cs : List Char} (hs : s.depth = 0)
    (h : Bracket.isEnclosed cs = true) : s.reported cs = [] := by
  obtain ⟨u, rfl, hu⟩ := Bracket.isEnclosed_iff.1 h
  exact Scan.reported_group hs hu

theorem isPlain_of_mem_word (f : FunctionName) : ∀ c ∈ f.word, Scan.isPlain c = true := by
  cases f <;> exact List.all_eq_true.1 rfl

theorem joins_of_call? {cs argument : List Char} {f : FunctionName}
    (h : call? cs = some (f, argument)) : joiningOperators cs = [] := by
  obtain ⟨rfl, ha⟩ := call?_eq_some_iff.1 h
  have plain := isPlain_of_mem_word f
  have ne : f.word ≠ [] := by cases f <;> decide
  rw [joiningOperators, Scan.reported_append, Scan.reported_plain rfl plain,
    Scan.after_plain rfl plain ne]
  exact Scan.reported_group (s := Scan.closed) rfl ha

theorem isVar_eq_false {cs : List Char} (small : cs ≠ ['x']) (capital : cs ≠ ['X']) :
    (cs == ['x'] || cs == ['X']) = false := by
  simp [small, capital]

/-- Where operators join operands, they decide the shape, unless the text looks like a number or is
a signed group. -/
theorem ofText_eq_ofOperators {cs : List Char} (joins : joiningOperators cs ≠ [])
    (number : isNumeral cs = false) (group : signedGroup? cs = none) :
    ofText cs = ofOperators cs := by
  have nonempty : cs.isEmpty = false := by
    cases cs with
    | nil => exact absurd rfl joins
    | cons c cs => rfl
  have enclosed : Bracket.isEnclosed cs = false := by
    rw [Bool.eq_false_iff]
    exact fun h => joins (joins_of_isEnclosed rfl h)
  have var : (cs == ['x'] || cs == ['X']) = false :=
    isVar_eq_false (fun h => joins (h ▸ rfl)) (fun h => joins (h ▸ rfl))
  have call : call? cs = none := by
    cases h : call? cs with
    | none => rfl
    | some m => exact absurd (joins_of_call? (show call? cs = some (m.1, m.2) from h)) joins
  unfold ofText
  simp only [nonempty, enclosed, var, number, group, call]
  rfl

/-- A text that does not start with a sign is no signed group, and a number only if it is plain. -/
theorem ofText_operand {c : Char} {cs : List Char} (head : isOperator c = false)
    (joins : joiningOperators (c :: cs) ≠ []) : ofText (c :: cs) = ofOperators (c :: cs) := by
  have plus : c ≠ '+' := by rintro rfl; exact absurd head (by decide)
  have minus : c ≠ '-' := by rintro rfl; exact absurd head (by decide)
  refine ofText_eq_ofOperators joins ?_ ?_
  · rw [Bool.eq_false_iff]
    intro h
    have chars := isNumeral_chars h
    rw [Numeral.splitSign_of_head ⟨minus, plus⟩] at chars
    exact joins (Scan.reported_plain rfl fun d hd => isPlain_of_isNumeralChar (chars d hd))
  · rw [Option.eq_none_iff_forall_ne_some]
    rintro ⟨p, rest⟩ h
    have := (List.cons.inj (signedGroup?_eq_some_iff.1 h).1).1
    cases p
    · exact plus this
    · exact minus this

theorem ofOperators_sum {cs : List Char}
    (sum : ((joiningOperators cs).any fun c => (Polarity.ofTermSign? c).isSome) = true) :
    ofOperators cs = .sum (terms cs) := by
  simp only [ofOperators, sum, if_true]

theorem ofOperators_product {cs : List Char}
    (noSum : ((joiningOperators cs).any fun c => (Polarity.ofTermSign? c).isSome) = false)
    (product : ((joiningOperators cs).any fun c => (Polarity.ofFactorSign? c).isSome) = true) :
    ofOperators cs = .product (factors cs) := by
  simp only [ofOperators, noSum, product, if_true, Bool.false_eq_true, if_false]

theorem ofOperators_power {cs : List Char} (joins : joiningOperators cs ≠ [])
    (noSum : ((joiningOperators cs).any fun c => (Polarity.ofTermSign? c).isSome) = false)
    (noProduct :
      ((joiningOperators cs).any fun c => (Polarity.ofFactorSign? c).isSome) = false) :
    ofOperators cs = .power (splitAtOperators ['^'] cs).1
      (cs.drop ((splitAtOperators ['^'] cs).1.length + 1)) := by
  simp only [ofOperators, noSum, noProduct, Bool.false_eq_true, if_false,
    List.isEmpty_iff, if_neg joins]

theorem joins_signed (p : Polarity) (cs : List Char) :
    joiningOperators (p.termSign :: cs) = p.termSign :: Scan.opened.reported cs := by
  cases p <;> rfl

/-- A sign decides the shape of what it stands before, unless that is a numeral or a group. -/
theorem ofText_sign {p : Polarity} {cs : List Char} (number : ∃ c ∈ cs, isNumeralChar c = false)
    (group : Bracket.isEnclosed cs = false) :
    ofText (p.termSign :: cs) = ofOperators (p.termSign :: cs) := by
  refine ofText_eq_ofOperators ?_ ?_ ?_
  · rw [joins_signed]
    exact List.cons_ne_nil _ _
  · rw [Bool.eq_false_iff]
    intro h
    have chars := isNumeral_chars h
    rw [Numeral.splitSign_signed] at chars
    obtain ⟨c, hc, other⟩ := number
    rw [chars c hc] at other
    cases other
  · simp [signedGroup?, group]

/-! ## Texts of a known shape -/

theorem ofText_group {u : List Char} (hu : Bracket.balanced u = true) :
    ofText ('(' :: (u ++ [')'])) = group u := by
  unfold ofText
  rw [if_neg (by simp), if_pos (Bracket.isEnclosed_iff.2 ⟨u, rfl, hu⟩)]
  simp

theorem ofText_number {cs : List Char} {v : Float} (number : isNumeral cs = true)
    (read : Decimal.readFloat? cs = some v) : ofText cs = Shape.number v := by
  have plain := isNumeral_chars number
  have first : ∀ c ∈ cs.head?, isNumeralChar c = true ∨ c = '+' ∨ c = '-' := by
    intro c hc
    unfold Decimal.splitSign at plain
    split at plain
    · exact .inr (.inr (Option.some.inj hc).symm)
    · exact .inr (.inl (Option.some.inj hc).symm)
    · exact .inl (plain c (List.mem_of_mem_head? hc))
  have nonempty : cs.isEmpty = false := by
    cases cs with
    | nil => simp [Decimal.readFloat?, Decimal.readMagnitude?, Decimal.splitSign,
        Numeral.readWord?_eq_none] at read
    | cons c cs => rfl
  have enclosed : Bracket.isEnclosed cs = false := by
    rw [Bool.eq_false_iff]
    intro h
    obtain ⟨u, rfl, -⟩ := Bracket.isEnclosed_iff.1 h
    exact absurd (first '(' rfl) (by decide)
  have var : (cs == ['x'] || cs == ['X']) = false := by
    refine isVar_eq_false ?_ ?_ <;> rintro rfl
    · exact absurd (first 'x' rfl) (by decide)
    · exact absurd (first 'X' rfl) (by decide)
  unfold ofText
  simp only [nonempty, enclosed, var, number, read]
  rfl

theorem ofText_signed {p : Polarity} {cs : List Char} (group : Bracket.isEnclosed cs = true) :
    ofText (p.termSign :: cs) = signed p cs := by
  obtain ⟨u, rfl, hu⟩ := Bracket.isEnclosed_iff.1 group
  have enclosed : Bracket.isEnclosed (p.termSign :: '(' :: (u ++ [')'])) = false := by
    cases p <;> rfl
  have number : isNumeral (p.termSign :: '(' :: (u ++ [')'])) = false := by
    cases p <;> rfl
  have var : (p.termSign :: '(' :: (u ++ [')']) == ['x'] ||
      p.termSign :: '(' :: (u ++ [')']) == ['X']) = false := by
    cases p <;> rfl
  have found : signedGroup? (p.termSign :: '(' :: (u ++ [')'])) =
      some (p, '(' :: (u ++ [')'])) := signedGroup?_eq_some_iff.2 ⟨rfl, group⟩
  unfold ofText
  simp only [enclosed, number, var, found]
  rfl

theorem ofText_call {f : FunctionName} {argument : List Char}
    (ha : Bracket.balanced argument = true) :
    ofText (f.word ++ '(' :: (argument ++ [')'])) = call f argument := by
  have found := call?_eq_some_iff (f := f).2 ⟨rfl, ha⟩
  unfold ofText
  cases f <;> simp only [found] <;> rfl

/-! ## What a shape says of its text -/

/-- The texts that have a shape, as far as the shape tells. -/
inductive Fits : List Char → Shape → Prop where
  | nothing (cs : List Char) : Fits cs .nothing
  | group {u : List Char} (hu : Bracket.balanced u = true) :
      Fits ('(' :: (u ++ [')'])) (.group u)
  | var {c : Char} (hc : c = 'x' ∨ c = 'X') : Fits [c] .var
  | number {cs : List Char} {v : Float} (number : isNumeral cs = true)
      (read : Decimal.readFloat? cs = some v) : Fits cs (.number v)
  | signed (p : Polarity) {u : List Char} (hu : Bracket.balanced u = true) :
      Fits (p.termSign :: '(' :: (u ++ [')'])) (.signed p ('(' :: (u ++ [')'])))
  | call (f : FunctionName) {u : List Char} (hu : Bracket.balanced u = true) :
      Fits (f.word ++ '(' :: (u ++ [')'])) (.call f u)
  | sum {cs : List Char} (some : ∃ c ∈ joiningOperators cs, c ∈ ['+', '-']) :
      Fits cs (.sum (terms cs))
  | product {cs : List Char} (noTerm : ∀ c ∈ joiningOperators cs, c ∉ ['+', '-'])
      (some : ∃ c ∈ joiningOperators cs, c ∈ ['*', '/']) : Fits cs (.product (factors cs))
  | power {base exponent : List Char}
      (carets : ∀ c ∈ joiningOperators (base ++ '^' :: exponent), c = '^')
      (quiet : Scan.start.reported base = []) :
      Fits (base ++ '^' :: exponent) (.power base exponent)

/-- The two marks of the members of a sum, or of a product. -/
theorem mem_marks_iff (mark : Polarity → Char) {c : Char} :
    c ∈ [mark .direct, mark .inverse] ↔ ∃ p, c = mark p := by
  rw [List.mem_cons, List.mem_singleton]
  constructor
  · rintro (rfl | rfl)
    · exact ⟨.direct, rfl⟩
    · exact ⟨.inverse, rfl⟩
  · rintro ⟨_ | _, rfl⟩
    · exact .inl rfl
    · exact .inr rfl

theorem any_polarity {mark : Polarity → Char} {polarity? : Char → Option Polarity}
    (reads : ∀ {c p}, polarity? c = some p ↔ c = mark p) {ops : List Char} :
    (ops.any fun c => (polarity? c).isSome) = true ↔
      ∃ c ∈ ops, c ∈ [mark .direct, mark .inverse] := by
  simp only [List.any_eq_true, Option.isSome_iff_exists, reads, mem_marks_iff]

theorem any_ofTermSign? {ops : List Char} :
    (ops.any fun c => (Polarity.ofTermSign? c).isSome) = true ↔ ∃ c ∈ ops, c ∈ ['+', '-'] :=
  any_polarity Polarity.ofTermSign?_eq_some_iff

theorem any_ofFactorSign? {ops : List Char} :
    (ops.any fun c => (Polarity.ofFactorSign? c).isSome) = true ↔ ∃ c ∈ ops, c ∈ ['*', '/'] :=
  any_polarity Polarity.ofFactorSign?_eq_some_iff

/-- An operator of neither sums nor products is a power mark. -/
theorem eq_caret {c : Char} (op : isOperator c = true) (noTerm : c ∉ ['+', '-'])
    (noFactor : c ∉ ['*', '/']) : c = '^' := by
  simp only [isOperator, operatorChars, List.contains_eq_mem, List.mem_cons, List.not_mem_nil,
    or_false, decide_eq_true_eq] at op noTerm noFactor
  tauto

/-- A cut at power marks has the first of them behind its first piece. -/
theorem exists_power_cut {cs : List Char} (cut : (splitAtOperators ['^'] cs).2 ≠ []) :
    ∃ base first tail, splitAtOperators ['^'] cs = (base, ('^', first) :: tail) ∧
      cs = base ++ '^' :: (first ++ Scan.join tail) := by
  obtain ⟨⟨c, first⟩, tail, e⟩ := List.exists_cons_of_ne_nil cut
  have member : (c, first) ∈ (Scan.start.split ['^'] cs).2 := by
    rw [← splitAtOperators, e]
    exact List.mem_cons_self
  obtain rfl : c = '^' := List.mem_singleton.1 (Scan.mem_ops_of_mem_split member)
  have text := splitAtOperators_join ['^'] cs
  rw [e] at text
  exact ⟨_, first, tail, Prod.ext rfl e, text.symm⟩

theorem drop_mark (base exponent : List Char) (c : Char) :
    (base ++ c :: exponent).drop (base.length + 1) = exponent := by
  simp [List.drop_append]

theorem fits_power {cs : List Char} (carets : ∀ c ∈ joiningOperators cs, c = '^')
    (some : joiningOperators cs ≠ []) :
    Fits cs (.power (splitAtOperators ['^'] cs).1
      (cs.drop ((splitAtOperators ['^'] cs).1.length + 1))) := by
  obtain ⟨c, hc⟩ := List.exists_mem_of_ne_nil _ some
  have caret : '^' ∈ joiningOperators cs := carets c hc ▸ hc
  have cut := splitAtOperators_tail_ne_nil caret (List.mem_singleton.2 rfl)
  have quiet : Scan.start.reported (splitAtOperators ['^'] cs).1 = [] := by
    rw [List.eq_nil_iff_forall_not_mem]
    intro c hc
    have silent := Scan.quiet_split_head ['^'] Scan.start cs c hc
    rw [carets c (Scan.reported_split_head ['^'] Scan.start cs hc)] at silent
    exact silent (List.mem_singleton.2 rfl)
  obtain ⟨base, first, tail, e, text⟩ := exists_power_cut cut
  rw [e] at quiet ⊢
  subst text
  rw [drop_mark]
  exact .power carets quiet

theorem fits_ofOperators (cs : List Char) : Fits cs (ofOperators cs) := by
  by_cases sum : ((joiningOperators cs).any fun c => (Polarity.ofTermSign? c).isSome) = true
  · rw [ofOperators_sum sum]
    exact .sum (any_ofTermSign?.1 sum)
  have noTerm : ∀ c ∈ joiningOperators cs, c ∉ ['+', '-'] :=
    fun c hc m => sum (any_ofTermSign?.2 ⟨c, hc, m⟩)
  rw [Bool.not_eq_true] at sum
  by_cases product :
      ((joiningOperators cs).any fun c => (Polarity.ofFactorSign? c).isSome) = true
  · rw [ofOperators_product sum product]
    exact .product noTerm (any_ofFactorSign?.1 product)
  have noFactor : ∀ c ∈ joiningOperators cs, c ∉ ['*', '/'] :=
    fun c hc m => product (any_ofFactorSign?.2 ⟨c, hc, m⟩)
  rw [Bool.not_eq_true] at product
  by_cases joins : joiningOperators cs = []
  · have none : ofOperators cs = nothing := by
      simp only [ofOperators, joins, List.any_nil, List.isEmpty_nil, if_true, Bool.false_eq_true,
        if_false]
    rw [none]
    exact .nothing cs
  · rw [ofOperators_power joins sum product]
    exact fits_power (fun c hc => eq_caret (Scan.isOperator_of_mem_reported hc) (noTerm c hc)
      (noFactor c hc)) joins

/-- **Every text fits the shape it is found to be of.** -/
theorem fits_ofText (cs : List Char) : Fits cs (ofText cs) := by
  unfold ofText
  split
  · exact .nothing cs
  split
  · rename_i enclosed
    obtain ⟨u, rfl, hu⟩ := Bracket.isEnclosed_iff.1 enclosed
    have inner : (('(' :: (u ++ [')'])).drop 1).dropLast = u := by simp
    rw [inner]
    exact .group hu
  split
  · rename_i var
    simp only [Bool.or_eq_true, beq_iff_eq] at var
    rcases var with rfl | rfl
    · exact .var (.inl rfl)
    · exact .var (.inr rfl)
  split
  · rename_i number
    split
    · rename_i v read
      exact .number number read
    · exact .nothing cs
  split
  · rename_i p rest found
    obtain ⟨rfl, group⟩ := signedGroup?_eq_some_iff.1 found
    obtain ⟨u, rfl, hu⟩ := Bracket.isEnclosed_iff.1 group
    exact .signed p hu
  split
  · rename_i f argument found
    obtain ⟨rfl, ha⟩ := call?_eq_some_iff.1 found
    exact .call f ha
  · exact fits_ofOperators cs

/-! ## The pieces stand in the text -/

theorem exists_mem_of_mem_members {polarity? : Char → Option Polarity}
    {tail : List (Char × List Char)} {m : Polarity × List Char}
    (h : m ∈ members polarity? tail) : ∃ c, (c, m.2) ∈ tail := by
  obtain ⟨w, hw, e⟩ := List.mem_filterMap.1 h
  obtain ⟨p, -, rfl⟩ := Option.map_eq_some_iff.1 e
  exact ⟨w.1, hw⟩

theorem infix_join {tail : List (Char × List Char)} {m : Char × List Char} (h : m ∈ tail) :
    m.2 <:+: Scan.join tail := by
  obtain ⟨before, behind, rfl⟩ := List.append_of_mem h
  refine ⟨Scan.join before ++ [m.1], Scan.join behind, ?_⟩
  simp [Scan.join]

theorem infix_of_mem_members {ops cs u : List Char} {polarity? : Char → Option Polarity}
    (h : u ∈ (members polarity? (splitAtOperators ops cs).2).map Prod.snd) : u <:+: cs := by
  obtain ⟨m, hm, rfl⟩ := List.mem_map.1 h
  obtain ⟨c, hc⟩ := exists_mem_of_mem_members hm
  have inside := (infix_join hc).trans (List.suffix_append (splitAtOperators ops cs).1 _).isInfix
  rwa [splitAtOperators_join] at inside

theorem infix_split_head (ops cs : List Char) : (splitAtOperators ops cs).1 <:+: cs := by
  have head := (List.prefix_append (splitAtOperators ops cs).1
    (Scan.join (splitAtOperators ops cs).2)).isInfix
  rwa [splitAtOperators_join] at head

/-- **What remains to be read** stands in the text it was taken from. -/
theorem infix_of_mem_pieces {cs u : List Char} {s : Shape} (fits : Fits cs s)
    (h : u ∈ s.pieces) : u <:+: cs := by
  cases fits with
  | nothing => cases h
  | group hu =>
    obtain rfl := List.mem_singleton.1 h
    exact ⟨['('], [')'], rfl⟩
  | var => cases h
  | number => cases h
  | signed p hu =>
    obtain rfl := List.mem_singleton.1 h
    exact (List.suffix_cons p.termSign _).isInfix
  | call f hu =>
    obtain rfl := List.mem_singleton.1 h
    exact ⟨f.word ++ ['('], [')'], by simp⟩
  | sum =>
    simp only [pieces, terms] at h
    split at h
    · exact infix_of_mem_members h
    · rcases List.mem_cons.1 h with rfl | h
      · exact infix_split_head _ _
      · exact infix_of_mem_members h
  | product =>
    simp only [pieces, factors] at h
    rcases List.mem_cons.1 h with rfl | h
    · exact infix_split_head _ _
    · exact infix_of_mem_members h
  | power =>
    simp only [pieces, List.mem_cons, List.not_mem_nil, or_false] at h
    rcases h with rfl | rfl
    · exact (List.prefix_append _ _).isInfix
    · exact ⟨_, [], by rw [List.append_nil, List.append_cons]⟩

end CurvePuzzle.Shape
