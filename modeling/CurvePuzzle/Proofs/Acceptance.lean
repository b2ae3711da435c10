import CurvePuzzle.Proofs.PhraseOfText
import CurvePuzzle.Proofs.PhraseReading

/-!
# What the reader of formulas accepts

Before a text is read, names are struck out of it and its characters, brackets and exponents are
checked. Every phrase passes.

* `Accepted`: what is checked; `reject?_eq_none_iff`: a text that is so is not refused.
* `Spelled`: the text consists of allowed characters and of names before brackets;
  `Spelled.strike`: striking out a name leaves a text that is spelled with the other names.
* `Unsigned`: no sign follows a power mark, here or in what may follow.
* `reject?_text`: no phrase is refused.
* `read_grammar`: the reader accepts what the grammar derives, and gives the tree of the derivation.
-/

set_option autoImplicit false

namespace CurvePuzzle

open Reading

/-! ## The checks -/

/-- What a text without blank characters must be like to be read. -/
structure Accepted (cs : List Char) : Prop where
  nonempty : cs ≠ []
  allowed : ∀ c ∈ withoutNames cs, c ∈ allowedChars
  balanced : Bracket.balanced cs = true
  unsigned : hasSignedExponent cs = false

theorem reject?_eq_none_iff {cs : List Char} : reject? cs = none ↔ Accepted cs := by
  unfold reject?
  constructor
  · intro h
    split at h
    · cases h
    rename_i nonempty
    split at h
    · cases h
    rename_i known
    split at h
    · cases h
    rename_i balanced
    split at h
    · cases h
    rename_i unsigned
    refine ⟨by simpa using nonempty, ?_, by simpa using balanced, by simpa using unsigned⟩
    intro c hc
    simpa using List.find?_eq_none.1 known c hc
  · rintro ⟨nonempty, allowed, balanced, unsigned⟩
    have known : ((withoutNames cs).find? fun c => !allowedChars.contains c) = none := by
      rw [List.find?_eq_none]
      intro c hc
      simpa using allowed c hc
    rw [if_neg (by simpa using nonempty), known, balanced, unsigned]
    rfl

/-! ## Characters -/

/-- The text consists of allowed characters and of names, each before a bracket. -/
inductive Spelled (names : List FunctionName) : List Char → Prop where
  | nil : Spelled names []
  | char {c : Char} {cs : List Char} (allowed : c ∈ allowedChars) (rest : Spelled names cs) :
      Spelled names (c :: cs)
  | name {f : FunctionName} {cs : List Char} (known : f ∈ names) (rest : Spelled names cs) :
      Spelled names (f.word ++ '(' :: cs)

namespace Spelled

theorem append {names : List FunctionName} {u v : List Char} (hu : Spelled names u)
    (hv : Spelled names v) : Spelled names (u ++ v) := by
  induction hu with
  | nil => exact hv
  | char allowed rest ih => exact .char allowed ih
  | name known rest ih =>
    rw [List.append_assoc]
    exact .name known ih

theorem of_allowed {names : List FunctionName} {u : List Char} (h : ∀ c ∈ u, c ∈ allowedChars) :
    Spelled names u := by
  induction u with
  | nil => exact .nil
  | cons c u ih =>
    exact .char (h c List.mem_cons_self) (ih fun d hd => h d (List.mem_cons_of_mem _ hd))

/-- A name starts with a letter that is not allowed on its own. -/
theorem strike_char {f : FunctionName} {c : Char} (allowed : c ∈ allowedChars) (cs : List Char) :
    strike f.word 0 (c :: cs) = c :: strike f.word 0 cs := by
  have other : f.word.isPrefixOf (c :: cs) = false := by
    obtain ⟨d, ds, e, letter⟩ : ∃ d ds, f.word = d :: ds ∧ d ∉ allowedChars := by
      cases f <;> exact ⟨_, _, rfl, by decide⟩
    have ne : (d == c) = false := by
      rw [beq_eq_false_iff_ne]
      rintro rfl
      exact letter allowed
    rw [e, List.isPrefixOf, ne, Bool.false_and]
  rw [strike, other]
  rfl

/-- A name is struck out, and every other name is left. -/
theorem strike_word (f g : FunctionName) (cs : List Char) :
    strike f.word 0 (g.word ++ '(' :: cs) =
      if f = g then '(' :: strike f.word 0 cs else g.word ++ '(' :: strike f.word 0 cs := by
  cases f <;> cases g <;> rfl

/-- **Striking out a name** leaves a text that is spelled with the other names. -/
theorem strike {f : FunctionName} {fs : List FunctionName} {cs : List Char}
    (h : Spelled (f :: fs) cs) : Spelled fs (Reading.strike f.word 0 cs) := by
  induction h with
  | nil => exact .nil
  | char allowed rest ih =>
    rw [strike_char allowed]
    exact .char allowed ih
  | @name g cs known rest ih =>
    rw [strike_word]
    split
    · exact .char (by decide) ih
    · rename_i ne
      rcases List.mem_cons.1 known with rfl | known
      · exact absurd rfl ne
      · exact .name known ih

theorem allowed {cs : List Char} (h : Spelled [] cs) : ∀ c ∈ cs, c ∈ allowedChars := by
  induction h with
  | nil => intro c hc; cases hc
  | char allowed rest ih => exact List.forall_mem_cons.2 ⟨allowed, ih⟩
  | name known => cases known

/-- Once every name is struck out, only allowed characters are left. -/
theorem allowed_withoutNames {cs : List Char} (h : Spelled FunctionName.all cs) :
    ∀ c ∈ withoutNames cs, c ∈ allowedChars := by
  have left : ∀ (fs : List FunctionName) (cs : List Char), Spelled fs cs →
      Spelled [] (fs.foldl (fun cs f => Reading.strike f.word 0 cs) cs) := by
    intro fs
    induction fs with
    | nil => exact fun cs h => h
    | cons f fs ih => exact fun cs h => ih _ h.strike
  exact (left _ _ h).allowed

end Spelled

/-! ## Exponents -/

/-- No sign follows a power mark, and the text does not end in one. -/
structure Unsigned (cs : List Char) : Prop where
  none : hasSignedExponent cs = false
  last : ∀ c ∈ cs.getLast?, c ≠ '^'

namespace Unsigned

theorem of_other {cs : List Char} (h : '^' ∉ cs) : Unsigned cs := by
  constructor
  · rw [Bool.eq_false_iff, Ne, hasSignedExponent_iff]
    rintro (m | m) <;> exact h (m.subset List.mem_cons_self)
  · rintro c hc rfl
    exact h (List.mem_of_getLast? hc)

theorem hasSignedExponent_append {u v : List Char} (hu : Unsigned u)
    (hv : hasSignedExponent v = false) : hasSignedExponent (u ++ v) = false := by
  obtain ⟨none, last⟩ := hu
  induction u with
  | nil => exact hv
  | cons c u ih =>
    cases u with
    | nil =>
      have other : (c == '^') = false := beq_eq_false_iff_ne.2 (last c rfl)
      cases v with
      | nil => rfl
      | cons d v =>
        show hasSignedExponent (c :: d :: v) = false
        rw [hasSignedExponent, other, hv]
        rfl
    | cons d u =>
      rw [hasSignedExponent, Bool.or_eq_false_iff] at none
      show hasSignedExponent (c :: d :: (u ++ v)) = false
      rw [hasSignedExponent, Bool.or_eq_false_iff]
      exact ⟨none.1, ih none.2 fun e he => last e (by rwa [List.getLast?_cons_cons])⟩

theorem append {u v : List Char} (hu : Unsigned u) (hv : Unsigned v) : Unsigned (u ++ v) := by
  refine ⟨hasSignedExponent_append hu hv.none, ?_⟩
  intro c hc
  rw [List.getLast?_append, Option.mem_def, Option.or_eq_some_iff] at hc
  rcases hc with hc | ⟨-, hc⟩
  · exact hv.last c hc
  · exact hu.last c hc

theorem cons {c : Char} {u : List Char} (hc : c ≠ '^') (hu : Unsigned u) : Unsigned (c :: u) :=
  append (u := [c]) (of_other fun hd => hc (List.mem_singleton.1 hd).symm) hu

theorem power {u v : List Char} {c : Char} (hu : Unsigned u) (hc : c ∉ ['+', '-'])
    (hv : Unsigned (c :: v)) : Unsigned (u ++ '^' :: c :: v) := by
  have head : hasSignedExponent ('^' :: c :: v) = false := by
    rw [hasSignedExponent, hv.none, Bool.or_false]
    simp only [List.mem_cons, List.not_mem_nil, or_false, not_or] at hc
    simp [hc]
  refine hu.append ⟨head, fun d hd => hv.last d ?_⟩
  rwa [List.getLast?_cons_cons] at hd

end Unsigned

namespace Phrase

/-! ## Every phrase passes the checks -/

theorem allowed_of_isDigit {c : Char} (h : c.isDigit = true) : c ∈ allowedChars := by
  have digits : ∀ n < 58, 48 ≤ n → Char.ofNat n ∈ allowedChars := by decide
  simp only [Char.isDigit, Bool.and_eq_true, decide_eq_true_eq] at h
  have low : 48 ≤ c.toNat := h.1
  have high : c.toNat ≤ 57 := h.2
  have allowed := digits c.toNat (by omega) low
  rwa [Char.ofNat_toNat] at allowed

theorem spelled_signText (names : List FunctionName) (signs : List Polarity) :
    Spelled names (signText signs) := by
  refine .of_allowed ?_
  intro c hc
  rcases signText_isSign hc with rfl | rfl <;> decide

/-- **Every phrase is spelled** with allowed characters and names. -/
theorem spelled_text {k : Category} (p : Phrase k) : Spelled FunctionName.all p.text := by
  have group {u : List Char} (hu : Spelled FunctionName.all u) :
      Spelled FunctionName.all (u ++ [')']) := hu.append (.char (by decide) .nil)
  induction p with
  | var upper => cases upper <;> exact .char (by decide) .nil
  | numeral n =>
    refine .of_allowed ?_
    intro c hc
    rcases Numeral.mem_text hc with digit | rfl
    · exact allowed_of_isDigit digit
    · decide
  | group inner ih => exact .char (by decide) (group ih)
  | call name argument ih => exact .name (by cases name <;> decide) (group ih)
  | base p ih => exact ih
  | power p exponent ihp ihe => exact ihp.append (.char (by decide) ihe)
  | noFactor => exact .nil
  | nextFactor role signs f rest ihf ihr =>
    exact .char (by cases role <;> decide) (((spelled_signText _ signs).append ihf).append ihr)
  | term f rest ihf ihr => exact ihf.append ihr
  | noTerm => exact .nil
  | nextTerm sign signs t rest iht ihr =>
    exact .char (by cases sign <;> decide) (((spelled_signText _ signs).append iht).append ihr)
  | expression signs t rest iht ihr =>
    exact ((spelled_signText _ signs).append iht).append ihr

theorem unsigned_signText (signs : List Polarity) : Unsigned (signText signs) := by
  apply Unsigned.of_other
  intro hc
  rcases signText_isSign hc with e | e <;> cases e

theorem not_sign_of_startsOperand {c : Char} (h : startsOperand c = true) : c ∉ ['+', '-'] :=
  fun sign => List.any_eq_false.1 (rfl : ['+', '-'].any startsOperand = false) c sign h

/-- **In no phrase a sign follows a power mark.** -/
theorem unsigned_text {k : Category} (p : Phrase k) : Unsigned p.text := by
  have group {u : List Char} (hu : Unsigned u) : Unsigned ('(' :: (u ++ [')'])) :=
    .cons (by decide) (hu.append (.of_other (by decide)))
  induction p with
  | var upper => cases upper <;> exact .of_other (by decide)
  | numeral n =>
    apply Unsigned.of_other
    intro hc
    cases Numeral.isPlain_of_mem_text hc
  | group inner ih => exact group ih
  | call name argument ih => exact .append (.of_other (by cases name <;> decide)) (group ih)
  | base p ih => exact ih
  | power p exponent ihp ihe =>
    obtain ⟨c, cs, e, hc⟩ := exponent.exists_cons_text (.inr (.inl rfl))
    rw [e] at ihe
    rw [text, e]
    exact ihp.power (not_sign_of_startsOperand hc) ihe
  | noFactor => exact .of_other (by decide)
  | nextFactor role signs f rest ihf ihr =>
    exact .cons (by cases role <;> decide) (((unsigned_signText signs).append ihf).append ihr)
  | term f rest ihf ihr => exact ihf.append ihr
  | noTerm => exact .of_other (by decide)
  | nextTerm sign signs t rest iht ihr =>
    exact .cons (by cases sign <;> decide) (((unsigned_signText signs).append iht).append ihr)
  | expression signs t rest iht ihr =>
    exact ((unsigned_signText signs).append iht).append ihr

theorem text_ne_nil (p : Phrase .expression) : p.text ≠ [] := by
  cases p with
  | expression signs t rest =>
    obtain ⟨c, cs, e, -⟩ := t.exists_cons_text (.inr (.inr rfl))
    rw [text, e]
    simp

/-- **No phrase is refused.** -/
theorem reject?_text (p : Phrase .expression) : reject? p.text = none :=
  reject?_eq_none_iff.2
    ⟨p.text_ne_nil, p.spelled_text.allowed_withoutNames, p.balanced_text, p.unsigned_text.none⟩

end Phrase

namespace Formula

/-! ## The reader and the grammar -/

/-- What is read is a formula. -/
theorem ne_invalid_of_parse? {cs : List Char} {e : Formula Float} (h : parse? cs = some e) :
    e ≠ invalid := by
  induction n : cs.length using Nat.strongRecOn generalizing cs with
  | ind n ih =>
    rw [parse?_eq] at h
    rintro rfl
    match shape : Shape.ofText cs with
    | .group inner =>
      have shorter : inner.length < cs.length :=
        Shape.length_lt_of_mem_pieces (by rw [shape]; exact List.mem_singleton.2 rfl)
      rw [shape] at h
      exact ih inner.length (by omega) h rfl rfl
    | .nothing => rw [shape] at h; cases h
    | .var => rw [shape] at h; cases h
    | .number v => rw [shape] at h; cases h
    | .signed p rest => rw [shape] at h; simp [assemble?] at h
    | .call f argument => rw [shape] at h; simp [assemble?] at h
    | .sum ts => rw [shape] at h; simp [assemble?] at h
    | .product fs => rw [shape] at h; simp [assemble?] at h
    | .power base exponent =>
      rw [shape, assemble?] at h
      split at h <;> cases h

theorem read_of_text {text : String} {p : Phrase .expression} (h : p.text = squeeze text) :
    read text = p.tree := by
  have whole : parse? p.text = some p.tree := p.reads
  unfold read
  simp only [← h, p.reject?_text, whole]
  rfl

theorem isExpression_of_read {text : String} (h : read text ≠ invalid) :
    IsExpression (squeeze text) := by
  simp only [read] at h
  split at h
  · exact absurd rfl h
  · rename_i passed
    refine isExpression_of_parse? ?_ (reject?_eq_none_iff.1 passed).unsigned
    cases e : parse? (squeeze text) with
    | none => rw [e] at h; exact absurd rfl h
    | some e => rfl

/-- **The reader accepts exactly the grammar.** A text is a formula when the grammar derives it
without its blank characters, and then it is read as the tree of any derivation. -/
theorem read_grammar (text : String) :
    (read text ≠ invalid ↔ ∃ p : Phrase .expression, p.text = squeeze text) ∧
      ∀ p : Phrase .expression, p.text = squeeze text → read text = p.tree := by
  refine ⟨⟨isExpression_of_read, ?_⟩, fun p h => read_of_text h⟩
  rintro ⟨p, h⟩
  rw [read_of_text h]
  exact ne_invalid_of_parse? p.reads

/-- A sign stands before the whole power behind it. -/
theorem read_signed_power :
    (Phrase.ofTerm [.inverse] (.term (.power (.var false) (.base (.var true))) .noFactor)).text =
        squeeze "- x^X" ∧
      read "- x^X" = .sum [(.inverse, .pow .var .var)] := by
  have derived : (Phrase.ofTerm [.inverse]
      (.term (.power (.var false) (.base (.var true))) .noFactor)).text = squeeze "- x^X" := by
    decide
  exact ⟨derived, (read_grammar "- x^X").2 _ derived⟩

end Formula

end CurvePuzzle
