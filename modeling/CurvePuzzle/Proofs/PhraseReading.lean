import CurvePuzzle.Proofs.Grammar

/-!
# Every phrase is read as its tree

The text of a phrase is taken apart at exactly the places where the derivation branches.

* `split_terms`, `split_factors`: a sum or product is cut into the operands of the phrase.
* `parse?_sign`, `parse?_signs`: what a row of signs before an operand reads as.
* `reads`: the text of a phrase reads as the tree of the phrase.
-/

set_option autoImplicit false

namespace CurvePuzzle

open Reading

namespace Phrase

/-! ## The operators of each category -/

theorem joins_factor {k : Category} (p : Phrase k) (h : k = .primary ∨ k = .factor) :
    ∀ c ∈ p.joins, c = '^' := by
  induction p with
  | power p exponent ihp ihe =>
    intro c hc
    rcases List.mem_cons.1 hc with rfl | hc
    · rfl
    · exact ihe (.inr rfl) c hc
  | var upper => intro c hc; cases hc
  | numeral n => intro c hc; cases hc
  | group inner => intro c hc; cases hc
  | call name argument => intro c hc; cases hc
  | base p => intro c hc; cases hc
  | noFactor => simp at h
  | nextFactor => simp at h
  | term => simp at h
  | noTerm => simp at h
  | nextTerm => simp at h
  | expression => simp at h

/-- Is this the operator of a product or power? -/
def isTight (c : Char) : Bool := c == '*' || c == '/' || c == '^'

theorem isTight_factorSign (p : Polarity) : isTight p.factorSign = true := by
  cases p <;> rfl

theorem joins_term {k : Category} (p : Phrase k) (h : k = .factors ∨ k = .term) :
    ∀ c ∈ p.joins, isTight c = true := by
  induction p with
  | noFactor => intro c hc; cases hc
  | nextFactor role signs f rest ihf ihr =>
    intro c hc
    rcases List.mem_cons.1 hc with rfl | hc
    · exact isTight_factorSign role
    · rcases List.mem_append.1 hc with hc | hc
      · obtain rfl := f.joins_factor (.inr rfl) c hc
        rfl
      · exact ihr (.inl rfl) c hc
  | term f rest ihf ihr =>
    intro c hc
    rcases List.mem_append.1 hc with hc | hc
    · obtain rfl := f.joins_factor (.inr rfl) c hc
      rfl
    · exact ihr (.inl rfl) c hc
  | var => simp at h
  | numeral => simp at h
  | group => simp at h
  | call => simp at h
  | base => simp at h
  | power => simp at h
  | noTerm => simp at h
  | nextTerm => simp at h
  | expression => simp at h

theorem not_term_of_isTight {c : Char} (h : isTight c = true) : c ∉ ['+', '-'] :=
  fun sign => List.any_eq_false.1 (rfl : ['+', '-'].any isTight = false) c sign h

/-! ## Cutting -/

/-- The further members of a formula behind their marks. -/
def marked (mark : Polarity → Char) (ms : List (Polarity × List Char)) :
    List (Char × List Char) :=
  ms.map fun m => (mark m.1, m.2)

theorem members_marked {mark : Polarity → Char} {polarity? : Char → Option Polarity}
    (h : ∀ p, polarity? (mark p) = some p) (ms : List (Polarity × List Char)) :
    Shape.members polarity? (marked mark ms) = ms := by
  induction ms with
  | nil => rfl
  | cons m ms ih =>
    show List.filterMap _ ((mark m.1, m.2) :: marked mark ms) = m :: ms
    rw [List.filterMap_cons_some (b := m) (by rw [h]; rfl)]
    exact congrArg (m :: ·) ih

/-- **A sum is cut into its terms.** -/
theorem split_terms {s : Scan} {u : List Char} (hs : s.after u = Scan.closed)
    (quiet : ∀ c ∈ s.reported u, c ∉ ['+', '-']) :
    (rest : Phrase .terms) →
      s.split ['+', '-'] (u ++ rest.text) = (u, marked Polarity.termSign rest.pieces)
  | .noTerm => by
    rw [text, List.append_nil]
    exact Scan.split_quiet quiet
  | .nextTerm sign signs t rest => by
    obtain ⟨same, behind⟩ := scan_signed signs t.text
    obtain ⟨ops, last⟩ := t.scan_text (s := Scan.opened) rfl
    have tight : ∀ c ∈ Scan.opened.reported (signText signs ++ t.text), c ∉ ['+', '-'] := by
      intro c hc
      rw [same, ops] at hc
      exact not_term_of_isTight (t.joins_term (.inr rfl) c hc)
    have ih := split_terms (behind.trans last) tight rest
    have cut : (s.after u).reports sign.termSign = true := by
      rw [hs]
      cases sign <;> rfl
    have asked : sign.termSign ∈ ['+', '-'] := by cases sign <;> decide
    rw [text, Scan.split_append cut asked, Scan.split_quiet quiet, ih]
    rfl

/-- **A product is cut into its factors.** -/
theorem split_factors {s : Scan} {u : List Char} (hs : s.after u = Scan.closed)
    (quiet : ∀ c ∈ s.reported u, c ∉ ['*', '/']) :
    (rest : Phrase .factors) →
      s.split ['*', '/'] (u ++ rest.text) = (u, marked Polarity.factorSign rest.pieces)
  | .noFactor => by
    rw [text, List.append_nil]
    exact Scan.split_quiet quiet
  | .nextFactor role signs f rest => by
    obtain ⟨same, behind⟩ := scan_signed signs f.text
    obtain ⟨ops, last⟩ := f.scan_text (s := Scan.opened) rfl
    have tight : ∀ c ∈ Scan.opened.reported (signText signs ++ f.text), c ∉ ['*', '/'] := by
      intro c hc
      rw [same, ops] at hc
      rw [f.joins_factor (.inr rfl) c hc]
      decide
    have ih := split_factors (behind.trans last) tight rest
    have cut : (s.after u).reports role.factorSign = true := by
      rw [hs]
      cases role <;> rfl
    have asked : role.factorSign ∈ ['*', '/'] := by cases role <;> decide
    rw [text, Scan.split_append cut asked, Scan.split_quiet quiet, ih]
    rfl

/-! ## Sums -/

theorem any_termSign {p : Polarity} {ops : List Char} (h : p.termSign ∈ ops) :
    (ops.any fun c => (Polarity.ofTermSign? c).isSome) = true :=
  List.any_eq_true.2 ⟨_, h, by simp⟩

theorem no_termSign {ops : List Char} (h : ∀ c ∈ ops, isTight c = true) :
    (ops.any fun c => (Polarity.ofTermSign? c).isSome) = false := by
  rw [List.any_eq_false]
  intro c hc
  have tight := h c hc
  simp only [isTight, Bool.or_eq_true, beq_iff_eq] at tight
  rcases tight with (rfl | rfl) | rfl <;> simp [Polarity.ofTermSign?]

/-- The terms of a text that starts with a sign. -/
theorem terms_signed (p : Polarity) (u : List Char) (ms : List (Polarity × List Char))
    {v : List Char} (h : Scan.opened.split ['+', '-'] v = (u, marked Polarity.termSign ms)) :
    Shape.terms (p.termSign :: v) = (p, u) :: ms := by
  have cut : (Scan.start.after []).reports p.termSign = true := by cases p <;> rfl
  have asked : p.termSign ∈ ['+', '-'] := by cases p <;> decide
  have parts : splitAtOperators ['+', '-'] (p.termSign :: v) =
      ([], marked Polarity.termSign ((p, u) :: ms)) := by
    have := Scan.split_append (u := []) (v := v) cut asked
    rw [List.nil_append, h] at this
    exact this
  unfold Shape.terms
  rw [parts]
  exact members_marked Polarity.ofTermSign?_termSign _

theorem ofOperators_signed (p : Polarity) (v : List Char) :
    Shape.ofOperators (p.termSign :: v) = .sum (Shape.terms (p.termSign :: v)) := by
  refine Shape.ofOperators_sum ?_
  rw [Shape.joins_signed]
  exact any_termSign List.mem_cons_self

/-- **One sign before an operand** that is no numeral makes a sum of one term. -/
theorem parse?_sign {v : List Char} {e : Formula Float} (p : Polarity) (read : parse? v = some e)
    (quiet : ∀ c ∈ Scan.opened.reported v, c ∉ ['+', '-'])
    (number : ∃ c ∈ v, Shape.isNumeralChar c = false) :
    parse? (p.termSign :: v) = some (.sum [(p, e)]) := by
  rw [parse?_eq]
  by_cases group : Bracket.isEnclosed v = true
  · rw [Shape.ofText_signed group]
    simp [assemble?, read]
  · rw [Shape.ofText_sign number (by simpa using group), ofOperators_signed,
      terms_signed p v [] (Scan.split_quiet quiet)]
    simp [assemble?, readMembers?, read]

/-- **A row of signs before an operand.** -/
theorem parse?_signs {u : List Char} {e : Formula Float} {lone : Option Numeral}
    (read : parse? u = some e) (quiet : ∀ c ∈ Scan.opened.reported u, c ∉ ['+', '-'])
    (isLone : ∀ n ∈ lone, u = n.text)
    (notLone : lone = none → ∃ c ∈ u, Shape.isNumeralChar c = false) :
    ∀ signs, parse? (signText signs ++ u) = some (signedTree lone e signs) := by
  intro signs
  induction signs with
  | nil => exact read
  | cons p signs ih =>
    cases signs with
    | nil =>
      cases lone with
      | none => exact parse?_sign p read quiet (notLone rfl)
      | some n =>
        rw [isLone n rfl, parse?_eq]
        exact congrArg (assemble? parse?)
          (Shape.ofText_number (n.isNumeral_signed p) (n.readFloat?_signed p))
    | cons q signs =>
      refine parse?_sign p ih ?_ ⟨q.termSign, List.mem_cons_self, ?_⟩
      · intro c hc
        have same := (scan_signed (q :: signs) u).1
        exact quiet c (same ▸ hc)
      · cases q <;> rfl

/-! ## Operands that are no numerals -/

theorem text_of_numeral? {k : Category} {p : Phrase k} {n : Numeral} (h : p.numeral? = some n) :
    p.text = n.text := by
  induction p with
  | numeral m =>
    obtain rfl := Option.some.inj h
    rfl
  | base p ih => exact ih h
  | term f rest ihf =>
    cases rest with
    | noFactor =>
      rw [text, ihf h]
      exact List.append_nil _
    | nextFactor => cases h
  | var => cases h
  | group => cases h
  | call => cases h
  | power => cases h
  | noFactor => cases h
  | nextFactor => cases h
  | noTerm => cases h
  | nextTerm => cases h
  | expression => cases h

/-- An operand that is no numeral has a character that numerals do not have. -/
theorem exists_other_char {k : Category} (p : Phrase k)
    (h : k = .primary ∨ k = .factor ∨ k = .term) (none : p.numeral? = none) :
    ∃ c ∈ p.text, Shape.isNumeralChar c = false := by
  induction p with
  | var upper => cases upper <;> exact ⟨_, List.mem_cons_self, rfl⟩
  | numeral n => cases none
  | group inner => exact ⟨'(', List.mem_cons_self, rfl⟩
  | call name argument =>
    exact ⟨'(', List.mem_append_right _ List.mem_cons_self, rfl⟩
  | base p ih => exact ih (.inl rfl) none
  | power p exponent => exact ⟨'^', List.mem_append_right _ List.mem_cons_self, rfl⟩
  | term f rest ihf =>
    cases rest with
    | noFactor =>
      obtain ⟨c, hc, other⟩ := ihf (.inr (.inl rfl)) none
      exact ⟨c, List.mem_append_left _ hc, other⟩
    | nextFactor role =>
      exact ⟨role.factorSign, List.mem_append_right _ List.mem_cons_self, by cases role <;> rfl⟩
  | noFactor => simp at h
  | nextFactor => simp at h
  | noTerm => simp at h
  | nextTerm => simp at h
  | expression => simp at h

theorem parse?_signed_term {t : Phrase .term} (read : parse? t.text = some t.tree)
    (signs : List Polarity) :
    parse? (signText signs ++ t.text) = some (signedTree t.numeral? t.tree signs) := by
  refine parse?_signs read ?_ (fun n hn => text_of_numeral? hn)
    (t.exists_other_char (.inr (.inr rfl))) signs
  intro c hc
  rw [(t.scan_text (s := Scan.opened) rfl).1] at hc
  exact not_term_of_isTight (t.joins_term (.inr rfl) c hc)

theorem parse?_signed_factor {f : Phrase .factor} (read : parse? f.text = some f.tree)
    (signs : List Polarity) :
    parse? (signText signs ++ f.text) = some (signedTree f.numeral? f.tree signs) := by
  refine parse?_signs read ?_ (fun n hn => text_of_numeral? hn)
    (f.exists_other_char (.inr (.inl rfl))) signs
  intro c hc
  rw [(f.scan_text (s := Scan.opened) rfl).1] at hc
  rw [f.joins_factor (.inr rfl) c hc]
  decide

/-! ## Products and powers -/

theorem isOperator_of_startsOperand {c : Char} (h : startsOperand c = true) :
    isOperator c = false := by
  simp only [startsOperand, Bool.and_eq_true, Bool.not_eq_true'] at h
  exact h.1

theorem append_ne_nil_of_any {ops more : List Char} {asked : Char → Bool}
    (any : more.any asked = true) : ops ++ more ≠ [] := by
  intro e
  rw [(List.append_eq_nil_iff.1 e).2] at any
  cases any

/-- Operators decide the shape of an operand that has some. -/
theorem ofText_operand {k : Category} (p : Phrase k) (h : k = .primary ∨ k = .factor ∨ k = .term)
    {v : List Char} (joins : joiningOperators (p.text ++ v) ≠ []) :
    Shape.ofText (p.text ++ v) = Shape.ofOperators (p.text ++ v) := by
  obtain ⟨c, cs, e, hc⟩ := p.exists_cons_text h
  rw [e] at joins ⊢
  exact Shape.ofText_operand (isOperator_of_startsOperand hc) joins

theorem ofText_power (p : Phrase .primary) (exponent : Phrase .factor) :
    Shape.ofText (power p exponent).text = .power p.text exponent.text := by
  have base := p.scan_text (s := Scan.start) rfl
  have quiet : p.joins = [] := by cases p <;> rfl
  rw [quiet] at base
  have joins : joiningOperators (p.text ++ '^' :: exponent.text) = '^' :: exponent.joins := by
    rw [joiningOperators]
    exact ((power p exponent).scan_text (s := Scan.start) rfl).1
  have tight : ∀ c ∈ '^' :: exponent.joins, c = '^' := (power p exponent).joins_factor (.inr rfl)
  have noFactor : (('^' :: exponent.joins).any
      fun c => (Polarity.ofFactorSign? c).isSome) = false := by
    rw [List.any_eq_false]
    intro c hc
    rw [tight c hc]
    decide
  have cut : (Scan.start.after p.text).reports '^' = true := by rw [base.2]; rfl
  have head : (splitAtOperators ['^'] (p.text ++ '^' :: exponent.text)).1 = p.text := by
    rw [splitAtOperators, Scan.split_append cut (List.mem_singleton.2 rfl), Scan.split_quiet]
    rw [base.1]
    intro c hc
    cases hc
  rw [text, ofText_operand p (.inl rfl) (by rw [joins]; exact List.cons_ne_nil _ _),
    Shape.ofOperators_power (by rw [joins]; exact List.cons_ne_nil _ _)
      (by rw [joins, no_termSign fun c hc => by rw [tight c hc]; rfl]) (by rw [joins, noFactor]),
    head]
  simp

theorem ofText_product (f : Phrase .factor) {rest : Phrase .factors}
    (any : (rest.joins.any fun c => (Polarity.ofFactorSign? c).isSome) = true) :
    Shape.ofText (term f rest).text = .product ((.direct, f.text) :: rest.pieces) := by
  have scan := f.scan_text (s := Scan.start) rfl
  have joins : joiningOperators (f.text ++ rest.text) = f.joins ++ rest.joins := by
    rw [joiningOperators]
    exact ((term f rest).scan_text (s := Scan.start) rfl).1
  have quiet : ∀ c ∈ Scan.start.reported f.text, c ∉ ['*', '/'] := by
    intro c hc
    rw [scan.1] at hc
    rw [f.joins_factor (.inr rfl) c hc]
    decide
  have parts : splitAtOperators ['*', '/'] (f.text ++ rest.text) =
      (f.text, marked Polarity.factorSign rest.pieces) := split_factors scan.2 quiet rest
  have more : f.joins ++ rest.joins ≠ [] := append_ne_nil_of_any any
  have noTerm := no_termSign ((term f rest).joins_term (.inr rfl))
  rw [text, ofText_operand f (.inr (.inl rfl)) (by rwa [joins]),
    Shape.ofOperators_product (by rw [joins]; exact noTerm)
      (by rw [joins, List.any_append, any, Bool.or_true])]
  simp only [Shape.factors, parts, members_marked Polarity.ofFactorSign?_factorSign]

theorem ofText_sum (t : Phrase .term) {rest : Phrase .terms}
    (any : (rest.joins.any fun c => (Polarity.ofTermSign? c).isSome) = true) :
    Shape.ofText (t.text ++ rest.text) = .sum ((.direct, t.text) :: rest.pieces) := by
  have scan := t.scan_text (s := Scan.start) rfl
  have joins : joiningOperators (t.text ++ rest.text) = t.joins ++ rest.joins := by
    rw [joiningOperators, Scan.reported_append, scan.1, scan.2]
    exact congrArg (t.joins ++ ·) (rest.scan_text rfl).1
  have quiet : ∀ c ∈ Scan.start.reported t.text, c ∉ ['+', '-'] := by
    intro c hc
    rw [scan.1] at hc
    exact not_term_of_isTight (t.joins_term (.inr rfl) c hc)
  have parts : splitAtOperators ['+', '-'] (t.text ++ rest.text) =
      (t.text, marked Polarity.termSign rest.pieces) := split_terms scan.2 quiet rest
  have more : t.joins ++ rest.joins ≠ [] := append_ne_nil_of_any any
  obtain ⟨c, cs, e, -⟩ := t.exists_cons_text (.inr (.inr rfl))
  rw [ofText_operand t (.inr (.inr rfl)) (by rwa [joins]),
    Shape.ofOperators_sum (by rw [joins, List.any_append, any, Bool.or_true])]
  simp only [Shape.terms, parts, members_marked Polarity.ofTermSign?_termSign]
  rw [e]
  rfl

/-- The sum of a text that starts with signs: the first of them is that of the first term. -/
theorem ofText_signed_sum (p : Polarity) (signs : List Polarity) (t : Phrase .term)
    {rest : Phrase .terms}
    (any : (rest.joins.any fun c => (Polarity.ofTermSign? c).isSome) = true) :
    Shape.ofText (p.termSign :: (signText signs ++ t.text ++ rest.text)) =
      .sum ((p, signText signs ++ t.text) :: rest.pieces) := by
  obtain ⟨same, behind⟩ := scan_signed signs t.text
  obtain ⟨ops, last⟩ := t.scan_text (s := Scan.opened) rfl
  have quiet : ∀ c ∈ Scan.opened.reported (signText signs ++ t.text), c ∉ ['+', '-'] := by
    intro c hc
    rw [same, ops] at hc
    exact not_term_of_isTight (t.joins_term (.inr rfl) c hc)
  have parts := split_terms (behind.trans last) quiet rest
  have more : Scan.opened.reported (signText signs ++ t.text ++ rest.text) ≠ [] := by
    rw [Scan.reported_append, behind.trans last, (rest.scan_text rfl).1]
    exact append_ne_nil_of_any any
  have group : Bracket.isEnclosed (signText signs ++ t.text ++ rest.text) = false := by
    rw [Bool.eq_false_iff]
    exact fun h => more (Shape.joins_of_isEnclosed rfl h)
  have number : ∃ c ∈ signText signs ++ t.text ++ rest.text, Shape.isNumeralChar c = false := by
    cases rest with
    | noTerm => cases any
    | nextTerm sign =>
      exact ⟨sign.termSign, List.mem_append_right _ List.mem_cons_self, by cases sign <;> rfl⟩
  rw [Shape.ofText_sign number group, ofOperators_signed, terms_signed p _ _ parts]

/-! ## Whole phrases -/

/-- The text of a phrase reads as its tree, or its pieces read as the members it stands for. -/
def Reads : {k : Category} → Phrase k → Prop
  | .primary, p => parse? p.text = some p.tree
  | .factor, p => parse? p.text = some p.tree
  | .factors, p => readMembers? parse? p.pieces = some p.tree
  | .term, p => parse? p.text = some p.tree
  | .terms, p => readMembers? parse? p.pieces = some p.tree
  | .expression, p => parse? p.text = some p.tree

theorem reads_expression {signs : List Polarity} {t : Phrase .term} {rest : Phrase .terms}
    (iht : Reads t) (ihr : Reads rest) : Reads (expression signs t rest) := by
  have operand := parse?_signed_term iht
  cases rest with
  | noTerm =>
    have read := operand signs
    rw [← List.append_nil (signText signs ++ t.text)] at read
    cases signs <;> exact read
  | nextTerm sign ss u rest =>
    have any : ((nextTerm sign ss u rest).joins.any
        fun c => (Polarity.ofTermSign? c).isSome) = true := any_termSign List.mem_cons_self
    cases signs with
    | nil =>
      have shape := ofText_sum t any
      show parse? (t.text ++ (nextTerm sign ss u rest).text) = _
      rw [parse?_eq, shape, assemble?, readMembers?, iht, ihr]
      rfl
    | cons p signs =>
      have shape := ofText_signed_sum p signs t any
      show parse? (p.termSign :: (signText signs ++ t.text ++ (nextTerm sign ss u rest).text)) = _
      rw [parse?_eq, shape, assemble?, readMembers?, operand signs, ihr]
      rfl

/-- **Every phrase is read as its tree.** -/
theorem reads {k : Category} (p : Phrase k) : Reads p := by
  induction p with
  | var upper => cases upper <;> rfl
  | numeral n =>
    show parse? n.text = _
    rw [parse?_eq, Shape.ofText_number n.isNumeral_text n.readFloat?_text]
    rfl
  | group inner ih =>
    show parse? ('(' :: (inner.text ++ [')'])) = _
    rw [parse?_eq, Shape.ofText_group inner.balanced_text]
    exact ih
  | call name argument ih =>
    show parse? (name.word ++ '(' :: (argument.text ++ [')'])) = _
    rw [parse?_eq, Shape.ofText_call argument.balanced_text, assemble?,
      show parse? argument.text = some argument.tree from ih]
    rfl
  | base p ih => exact ih
  | power p exponent ihp ihe =>
    show parse? (power p exponent).text = _
    rw [parse?_eq, ofText_power, assemble?, show parse? p.text = some p.tree from ihp,
      show parse? exponent.text = some exponent.tree from ihe]
    rfl
  | noFactor => rfl
  | nextFactor role signs f rest ihf ihr =>
    show readMembers? parse? ((role, signText signs ++ f.text) :: rest.pieces) = _
    rw [readMembers?, parse?_signed_factor ihf signs,
      show readMembers? parse? rest.pieces = some rest.tree from ihr]
    rfl
  | term f rest ihf ihr =>
    cases rest with
    | noFactor =>
      show parse? (f.text ++ []) = _
      rw [List.append_nil]
      exact ihf
    | nextFactor role signs g rest =>
      have any : ((nextFactor role signs g rest).joins.any
          fun c => (Polarity.ofFactorSign? c).isSome) = true :=
        List.any_eq_true.2 ⟨_, List.mem_cons_self, by simp⟩
      show parse? (term f (nextFactor role signs g rest)).text = _
      rw [parse?_eq, ofText_product f any, assemble?, readMembers?,
        show parse? f.text = some f.tree from ihf,
        show readMembers? parse? (nextFactor role signs g rest).pieces = some _ from ihr]
      rfl
  | noTerm => rfl
  | nextTerm sign signs t rest iht ihr =>
    show readMembers? parse? ((sign, signText signs ++ t.text) :: rest.pieces) = _
    rw [readMembers?, parse?_signed_term iht signs,
      show readMembers? parse? rest.pieces = some rest.tree from ihr]
    rfl
  | expression signs t rest iht ihr => exact reads_expression iht ihr

end Phrase

end CurvePuzzle
