import CurvePuzzle.Proofs.ShapeOfText
import CurvePuzzle.Formula.Reader

/-!
# The grammar of formulas

A phrase is a derivation of the grammar

* `expression ::= sign* term (sign sign* term)*`
* `term ::= factor (('*' | '/') sign* factor)*`
* `factor ::= primary ('^' factor)?`
* `primary ::= 'x' | 'X' | numeral | '(' expression ')' | name '(' expression ')'`

with the two repetitions as categories of their own.

* `Phrase.text` is what a phrase derives, `Phrase.tree` the formula it stands for.
* `balanced_text`: every phrase is balanced.
* `Phrase.joins` are the operators that join its operands; `scan_text`: a scan reports them and
  ends behind an operand.
-/

set_option autoImplicit false

namespace CurvePuzzle

/-- The categories of phrases; `factors` and `terms` are what follows a first factor or term. -/
inductive Category where
  | primary
  | factor
  | factors
  | term
  | terms
  | expression
  deriving DecidableEq, Repr

/-- The derivations of the grammar, by category. -/
inductive Phrase : Category → Type where
  | var (upper : Bool) : Phrase .primary
  | numeral (n : Numeral) : Phrase .primary
  | group (inner : Phrase .expression) : Phrase .primary
  | call (name : FunctionName) (argument : Phrase .expression) : Phrase .primary
  | base (p : Phrase .primary) : Phrase .factor
  | power (p : Phrase .primary) (exponent : Phrase .factor) : Phrase .factor
  | noFactor : Phrase .factors
  | nextFactor (role : Polarity) (signs : List Polarity) (f : Phrase .factor)
      (rest : Phrase .factors) : Phrase .factors
  | term (f : Phrase .factor) (rest : Phrase .factors) : Phrase .term
  | noTerm : Phrase .terms
  | nextTerm (sign : Polarity) (signs : List Polarity) (t : Phrase .term)
      (rest : Phrase .terms) : Phrase .terms
  | expression (signs : List Polarity) (t : Phrase .term) (rest : Phrase .terms) :
      Phrase .expression

/-- The text of a row of signs. -/
def signText (signs : List Polarity) : List Char := signs.map Polarity.termSign

/-- What an operand with this tree stands for behind a row of signs: one sign belongs to a lone
numeral, any other makes a sum of one term. -/
def signedTree (lone : Option Numeral) (e : Formula Float) : List Polarity → Formula Float
  | [] => e
  | [p] =>
    match lone with
    | some n => .const (n.signedValue p)
    | none => .sum [(p, e)]
  | p :: q :: signs => .sum [(p, signedTree lone e (q :: signs))]

/-- What the phrases of a category stand for: formulas, or the further members of one. -/
@[reducible] def Category.Meaning : Category → Type
  | .primary => Formula Float
  | .factor => Formula Float
  | .factors => List (Polarity × Formula Float)
  | .term => Formula Float
  | .terms => List (Polarity × Formula Float)
  | .expression => Formula Float

namespace Phrase

/-- The text that a phrase derives. -/
@[simp]
def text : {k : Category} → Phrase k → List Char
  | _, var upper => [if upper then 'X' else 'x']
  | _, numeral n => n.text
  | _, group inner => '(' :: (inner.text ++ [')'])
  | _, call name argument => name.word ++ '(' :: (argument.text ++ [')'])
  | _, base p => p.text
  | _, power p exponent => p.text ++ '^' :: exponent.text
  | _, noFactor => []
  | _, nextFactor role signs f rest => role.factorSign :: (signText signs ++ f.text ++ rest.text)
  | _, term f rest => f.text ++ rest.text
  | _, noTerm => []
  | _, nextTerm sign signs t rest => sign.termSign :: (signText signs ++ t.text ++ rest.text)
  | _, expression signs t rest => signText signs ++ t.text ++ rest.text

/-- The numeral that a phrase consists of, if it is nothing else. -/
def numeral? : {k : Category} → Phrase k → Option Numeral
  | _, numeral n => some n
  | _, base p => p.numeral?
  | _, term f noFactor => f.numeral?
  | _, _ => none

/-- The formula, or the further members of a formula, that a phrase stands for. -/
def tree : {k : Category} → Phrase k → k.Meaning
  | _, var _ => Formula.var
  | _, numeral n => Formula.const n.value
  | _, group inner => inner.tree
  | _, call name argument => Formula.func name argument.tree
  | _, base p => p.tree
  | _, power p exponent => Formula.pow p.tree exponent.tree
  | _, noFactor => []
  | _, nextFactor role signs f rest => (role, signedTree f.numeral? f.tree signs) :: rest.tree
  | _, term f rest =>
    match rest.tree with
    | [] => f.tree
    | more => Formula.product ((.direct, f.tree) :: more)
  | _, noTerm => []
  | _, nextTerm sign signs t rest => (sign, signedTree t.numeral? t.tree signs) :: rest.tree
  | _, expression signs t rest =>
    match rest.tree, signs with
    | [], signs => signedTree t.numeral? t.tree signs
    | more, [] => Formula.sum ((.direct, t.tree) :: more)
    | more, sign :: signs => Formula.sum ((sign, signedTree t.numeral? t.tree signs) :: more)

/-- The operators that join the operands of a phrase outside brackets, without leading signs. -/
@[simp]
def joins : {k : Category} → Phrase k → List Char
  | _, base _ => []
  | _, power _ exponent => '^' :: exponent.joins
  | _, nextFactor role _ f rest => role.factorSign :: (f.joins ++ rest.joins)
  | _, term f rest => f.joins ++ rest.joins
  | _, nextTerm sign _ t rest => sign.termSign :: (t.joins ++ rest.joins)
  | _, expression _ t rest => t.joins ++ rest.joins
  | _, _ => []

/-- The texts of the further members of a formula. -/
def pieces : {k : Category} → Phrase k → List (Polarity × List Char)
  | _, nextFactor role signs f rest => (role, signText signs ++ f.text) :: rest.pieces
  | _, nextTerm sign signs t rest => (sign, signText signs ++ t.text) :: rest.pieces
  | _, _ => []

/-! ## Brackets -/

theorem signText_isSign {signs : List Polarity} {c : Char} (h : c ∈ signText signs) :
    c = '+' ∨ c = '-' := by
  obtain ⟨p, -, rfl⟩ := List.mem_map.1 h
  cases p
  · exact .inl rfl
  · exact .inr rfl

theorem balanced_signText (signs : List Polarity) : Bracket.balanced (signText signs) = true := by
  refine Bracket.balanced_of_plain ?_
  intro c hc
  rcases signText_isSign hc with rfl | rfl <;> decide

theorem balanced_single {c : Char} (ho : c ≠ '(') (hc : c ≠ ')') {u : List Char}
    (hu : Bracket.balanced u = true) : Bracket.balanced (c :: u) = true := by
  rw [Bracket.balanced_iff] at *
  rwa [Bracket.depthAfter?_other ho hc]

theorem balanced_word (f : FunctionName) : Bracket.balanced f.word = true := by
  cases f <;> rfl

/-- **Every phrase is balanced.** -/
theorem balanced_text {k : Category} (p : Phrase k) : Bracket.balanced p.text = true := by
  induction p with
  | var upper => cases upper <;> rfl
  | numeral n =>
    refine Bracket.balanced_of_plain ?_
    intro c hc
    have plain := Numeral.isPlain_of_mem_text hc
    simp only [Scan.isPlain, Bool.and_eq_true, bne_iff_ne, ne_eq] at plain
    exact ⟨plain.1.2, plain.2⟩
  | group inner ih => exact Bracket.balanced_enclose ih
  | call name argument ih =>
    exact Bracket.balanced_append (balanced_word name) (Bracket.balanced_enclose ih)
  | base p ih => exact ih
  | power p exponent ihp ihe =>
    exact Bracket.balanced_append ihp (balanced_single (by decide) (by decide) ihe)
  | noFactor => rfl
  | nextFactor role signs f rest ihf ihr =>
    have tail := Bracket.balanced_append
      (Bracket.balanced_append (balanced_signText signs) ihf) ihr
    cases role <;> exact balanced_single (by decide) (by decide) tail
  | term f rest ihf ihr => exact Bracket.balanced_append ihf ihr
  | noTerm => rfl
  | nextTerm sign signs t rest iht ihr =>
    have tail := Bracket.balanced_append
      (Bracket.balanced_append (balanced_signText signs) iht) ihr
    cases sign <;> exact balanced_single (by decide) (by decide) tail
  | expression signs t rest iht ihr =>
    exact Bracket.balanced_append (Bracket.balanced_append (balanced_signText signs) iht) ihr

/-! ## First characters -/

/-- Can an operand start with this character? It is no operator and no closing bracket. -/
def startsOperand (c : Char) : Bool := !isOperator c && c != ')'

theorem exists_cons_word (f : FunctionName) :
    ∃ c cs, f.word = c :: cs ∧ c.isAlpha = true ∧ ∀ d ∈ f.word, Scan.isPlain d = true := by
  cases f <;> exact ⟨_, _, rfl, by decide, Shape.isPlain_of_mem_word _⟩

theorem startsOperand_of_isPlain {c : Char} (h : Scan.isPlain c = true) :
    startsOperand c = true := by
  simp only [Scan.isPlain, Bool.and_eq_true] at h
  simp only [startsOperand, Bool.and_eq_true]
  exact ⟨h.1.1, h.2⟩

/-- An operand is not empty, and its first character starts an operand. -/
theorem exists_cons_text {k : Category} (p : Phrase k)
    (h : k = .primary ∨ k = .factor ∨ k = .term) :
    ∃ c cs, p.text = c :: cs ∧ startsOperand c = true := by
  induction p with
  | var upper => cases upper <;> exact ⟨_, _, rfl, by decide⟩
  | numeral n =>
    obtain ⟨c, cs, e, hc⟩ := n.exists_cons
    refine ⟨c, cs, e, startsOperand_of_isPlain (Numeral.isPlain_of_mem_text (n := n) ?_)⟩
    rw [e]
    exact List.mem_cons_self
  | group inner => exact ⟨_, _, rfl, by decide⟩
  | call name argument =>
    obtain ⟨c, cs, e, -, plain⟩ := exists_cons_word name
    refine ⟨c, _, by rw [text, e]; rfl, startsOperand_of_isPlain (plain c ?_)⟩
    rw [e]
    exact List.mem_cons_self
  | base p ih => exact ih (.inl rfl)
  | power p exponent ihp =>
    obtain ⟨c, cs, e, hc⟩ := ihp (.inl rfl)
    exact ⟨c, _, by rw [text, e]; rfl, hc⟩
  | term f rest ihf =>
    obtain ⟨c, cs, e, hc⟩ := ihf (.inr (.inl rfl))
    exact ⟨c, _, by rw [text, e]; rfl, hc⟩
  | noFactor => simp at h
  | nextFactor => simp at h
  | noTerm => simp at h
  | nextTerm => simp at h
  | expression => simp at h

/-! ## Scanning -/

/-- What a scan knows before a phrase of each category. -/
def entry : Category → Scan → Prop
  | .primary, s => s.depth = 0
  | .factor, s => s.depth = 0
  | .term, s => s.depth = 0
  | .factors, s => s = Scan.closed
  | .terms, s => s = Scan.closed
  | .expression, s => s = Scan.opened

theorem scan_word {s : Scan} (hs : s.depth = 0) (f : FunctionName) :
    s.reported f.word = [] ∧ s.after f.word = Scan.closed := by
  obtain ⟨c, cs, e, -, plain⟩ := exists_cons_word f
  exact ⟨Scan.reported_plain hs plain, Scan.after_plain hs plain (by rw [e]; simp)⟩

theorem scan_signs (signs : List Polarity) :
    Scan.opened.reported (signText signs) = [] ∧
      Scan.opened.after (signText signs) = Scan.opened :=
  Scan.reported_signs fun _ hc => signText_isSign hc

/-- Signs before an operand leave it as it is for a scan. -/
theorem scan_signed (signs : List Polarity) (u : List Char) :
    Scan.opened.reported (signText signs ++ u) = Scan.opened.reported u ∧
      Scan.opened.after (signText signs ++ u) = Scan.opened.after u := by
  rw [Scan.reported_append, Scan.after_append, (scan_signs signs).1, (scan_signs signs).2]
  exact ⟨rfl, rfl⟩

/-- **A scan reports what joins the operands** of a phrase, and ends behind an operand. -/
theorem scan_text {k : Category} (p : Phrase k) {s : Scan} (h : entry k s) :
    s.reported p.text = p.joins ∧ s.after p.text = Scan.closed := by
  induction p generalizing s with
  | var upper =>
    have plain : ∀ c ∈ (var upper).text, Scan.isPlain c = true := by
      cases upper <;> exact List.all_eq_true.1 rfl
    exact ⟨Scan.reported_plain h plain, Scan.after_plain h plain (List.cons_ne_nil _ _)⟩
  | numeral n =>
    have plain : ∀ c ∈ n.text, Scan.isPlain c = true := fun c hc => Numeral.isPlain_of_mem_text hc
    obtain ⟨c, cs, e, -⟩ := n.exists_cons
    exact ⟨Scan.reported_plain h plain, Scan.after_plain h plain (by rw [text, e]; simp)⟩
  | group inner =>
    exact ⟨Scan.reported_group h inner.balanced_text, Scan.after_group h inner.balanced_text⟩
  | call name argument =>
    obtain ⟨none, behind⟩ := scan_word h name
    simp only [text, Scan.reported_append, Scan.after_append, none, behind, List.nil_append]
    exact ⟨Scan.reported_group (s := Scan.closed) rfl argument.balanced_text,
      Scan.after_group (s := Scan.closed) rfl argument.balanced_text⟩
  | base p ih =>
    obtain ⟨none, behind⟩ := ih h
    exact ⟨none.trans (by cases p <;> rfl), behind⟩
  | power p exponent ihp ihe =>
    obtain ⟨none, behind⟩ := ihp h
    obtain ⟨ops, last⟩ := ihe (s := Scan.opened) rfl
    have quiet : p.joins = [] := by cases p <;> rfl
    simp only [text, joins, Scan.reported_append, Scan.after_append, none, behind, quiet]
    exact ⟨congrArg ('^' :: ·) ops, last⟩
  | noFactor =>
    obtain rfl := h
    exact ⟨rfl, rfl⟩
  | nextFactor role signs f rest ihf ihr =>
    obtain rfl := h
    obtain ⟨opsF, behind⟩ := ihf (s := Scan.opened) rfl
    obtain ⟨opsR, last⟩ := ihr rfl
    have tail : Scan.opened.reported (signText signs ++ f.text ++ rest.text) =
          f.joins ++ rest.joins ∧
        Scan.opened.after (signText signs ++ f.text ++ rest.text) = Scan.closed := by
      rw [List.append_assoc, (scan_signed signs _).1, (scan_signed signs _).2]
      rw [Scan.reported_append, Scan.after_append, opsF, behind, opsR, last]
      exact ⟨rfl, rfl⟩
    cases role <;> exact ⟨congrArg (_ :: ·) tail.1, tail.2⟩
  | term f rest ihf ihr =>
    obtain ⟨opsF, behind⟩ := ihf h
    obtain ⟨opsR, last⟩ := ihr rfl
    simp only [text, joins, Scan.reported_append, Scan.after_append, opsF, behind, opsR, last,
      and_self]
  | noTerm =>
    obtain rfl := h
    exact ⟨rfl, rfl⟩
  | nextTerm sign signs t rest iht ihr =>
    obtain rfl := h
    obtain ⟨opsT, behind⟩ := iht (s := Scan.opened) rfl
    obtain ⟨opsR, last⟩ := ihr rfl
    have tail : Scan.opened.reported (signText signs ++ t.text ++ rest.text) =
          t.joins ++ rest.joins ∧
        Scan.opened.after (signText signs ++ t.text ++ rest.text) = Scan.closed := by
      rw [List.append_assoc, (scan_signed signs _).1, (scan_signed signs _).2]
      rw [Scan.reported_append, Scan.after_append, opsT, behind, opsR, last]
      exact ⟨rfl, rfl⟩
    cases sign <;> exact ⟨congrArg (_ :: ·) tail.1, tail.2⟩
  | expression signs t rest iht ihr =>
    obtain rfl := h
    obtain ⟨opsT, behind⟩ := iht (s := Scan.opened) rfl
    obtain ⟨opsR, last⟩ := ihr rfl
    simp only [text, joins, Scan.reported_append, Scan.after_append, scan_signs, opsT, behind,
      opsR, last, List.nil_append, and_self]

end Phrase

end CurvePuzzle
