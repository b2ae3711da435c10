import CurvePuzzle.Proofs.CanonicalText
import CurvePuzzle.Proofs.DecimalReading
import CurvePuzzle.Proofs.FormulaParts

/-!
# The formulas that are read

The tree of a phrase has no gaps: nothing in it is invalid or undefined, and no sum or product has
too few members. So the only thing that can keep it from having a canonical text is a numeral too
large for a float.

* `Regular`: formulas without gaps; `regular_of_read`: what a text is read as.
* `Formula.HasFiniteConstants`; `Regular.printable`: then a regular formula is printable.
* `Regular.print?_eq_none_iff`: otherwise it has no canonical text.
* `Formula.read_is_stable`: a text that is read has a canonical text that is read the same.
-/

set_option autoImplicit false

namespace CurvePuzzle

/-- Formulas without an invalid node or an undefined constant, in which every sum has a term, and
every product two factors of which the first is no divisor. -/
inductive Regular : Formula Float → Prop where
  | const {v : Float} (defined : v.isNaN = false) : Regular (.const v)
  | var : Regular .var
  | sum {ts : List (Polarity × Formula Float)} (some : ts ≠ [])
      (terms : ∀ m ∈ ts, Regular m.2) : Regular (.sum ts)
  | product {f : Formula Float} {fs : List (Polarity × Formula Float)} (some : fs ≠ [])
      (first : Regular f) (factors : ∀ m ∈ fs, Regular m.2) :
      Regular (.product ((.direct, f) :: fs))
  | pow {b e : Formula Float} (base : Regular b) (exponent : Regular e) : Regular (.pow b e)
  | func (f : FunctionName) {a : Formula Float} (argument : Regular a) : Regular (.func f a)

/-! ## Trees of phrases -/

theorem Numeral.isNaN_signedValue (n : Numeral) (p : Polarity) :
    (n.signedValue p).isNaN = false := by
  have value := n.stands_value
  have defined := Binary64.decimalCode_le (Decimal.natOfDigits n.digits) n.places
  rw [← value.code] at defined
  rw [← Bool.not_eq_true, Binary64.isNaN_iff]
  cases p with
  | direct => exact Nat.not_lt.2 defined
  | inverse =>
    have negated := Binary64.stands_neg defined
    rw [signedValue, negated.code]
    exact Nat.not_lt.2 defined

/-- Is what a phrase of the category stands for regular? -/
def Category.IsRegular : (k : Category) → k.Meaning → Prop
  | .primary, e => Regular e
  | .factor, e => Regular e
  | .factors, ms => ∀ m ∈ ms, Regular m.2
  | .term, e => Regular e
  | .terms, ms => ∀ m ∈ ms, Regular m.2
  | .expression, e => Regular e

theorem Regular.sum_cons {p : Polarity} {e : Formula Float}
    {ts : List (Polarity × Formula Float)} (first : Regular e) (rest : ∀ m ∈ ts, Regular m.2) :
    Regular (.sum ((p, e) :: ts)) :=
  .sum (List.cons_ne_nil _ _) (List.forall_mem_cons.2 ⟨first, rest⟩)

theorem regular_signedTree (lone : Option Numeral) {e : Formula Float} (h : Regular e)
    (signs : List Polarity) : Regular (signedTree lone e signs) := by
  induction signs with
  | nil => exact h
  | cons p signs ih =>
    cases signs with
    | nil =>
      cases lone with
      | none => exact .sum_cons h (List.forall_mem_nil _)
      | some n => exact .const (n.isNaN_signedValue p)
    | cons q signs => exact .sum_cons ih (List.forall_mem_nil _)

/-- **The tree of a phrase is regular.** -/
theorem Phrase.regular_tree {k : Category} (p : Phrase k) : k.IsRegular p.tree := by
  induction p with
  | var upper => exact .var
  | numeral n => exact .const (n.isNaN_signedValue .direct)
  | group inner ih => exact ih
  | call name argument ih => exact .func name ih
  | base p ih => exact ih
  | power p exponent ihp ihe => exact .pow ihp ihe
  | noFactor => exact List.forall_mem_nil _
  | nextFactor role signs f rest ihf ihr =>
    exact List.forall_mem_cons.2 ⟨regular_signedTree _ ihf signs, ihr⟩
  | term f rest ihf ihr =>
    show Regular (Phrase.tree (.term f rest))
    unfold Phrase.tree
    split
    · exact ihf
    · rename_i some
      exact .product some ihf ihr
  | noTerm => exact List.forall_mem_nil _
  | nextTerm sign signs t rest iht ihr =>
    exact List.forall_mem_cons.2 ⟨regular_signedTree _ iht signs, ihr⟩
  | expression signs t rest iht ihr =>
    show Regular (Phrase.tree (.expression signs t rest))
    unfold Phrase.tree
    split
    · exact regular_signedTree _ iht _
    · exact .sum_cons iht ihr
    · exact .sum_cons (regular_signedTree _ iht _) ihr

/-- **What is read is regular.** -/
theorem regular_of_read {text : String} (h : Formula.read text ≠ .invalid) :
    Regular (Formula.read text) := by
  obtain ⟨p, derived⟩ := Formula.isExpression_of_read h
  rw [Formula.read_of_text derived]
  exact p.regular_tree

/-! ## Constants -/

namespace Formula

/-- Are all constants of the formula finite? -/
def HasFiniteConstants (e : Formula Float) : Prop := ∀ c ∈ e.constants, c.isFinite = true

theorem hasFiniteConstants_const {v : Float} :
    (const v).HasFiniteConstants ↔ v.isFinite = true := over_const

theorem hasFiniteConstants_sum {ts : List (Polarity × Formula Float)} :
    (sum ts).HasFiniteConstants ↔ ∀ m ∈ ts, m.2.HasFiniteConstants := over_sum

theorem hasFiniteConstants_product {fs : List (Polarity × Formula Float)} :
    (product fs).HasFiniteConstants ↔ ∀ m ∈ fs, m.2.HasFiniteConstants := over_product

theorem hasFiniteConstants_pow {b e : Formula Float} :
    (pow b e).HasFiniteConstants ↔ b.HasFiniteConstants ∧ e.HasFiniteConstants := over_pow

theorem hasFiniteConstants_func {f : FunctionName} {a : Formula Float} :
    (func f a).HasFiniteConstants ↔ a.HasFiniteConstants := over_func

end Formula

open Formula

/-- A regular formula of finite constants is printable. -/
theorem Regular.printable {e : Formula Float} (h : Regular e) (finite : e.HasFiniteConstants) :
    Printable e := by
  induction h with
  | const defined => exact .const (hasFiniteConstants_const.1 finite)
  | var => exact .var
  | sum some terms ih =>
    exact .sum some fun m hm => ih m hm (hasFiniteConstants_sum.1 finite m hm)
  | product some first factors ihf ih =>
    obtain ⟨finiteFirst, finite⟩ := List.forall_mem_cons.1 (hasFiniteConstants_product.1 finite)
    exact .product some (ihf finiteFirst) fun m hm => ih m hm (finite m hm)
  | pow base exponent ihb ihe =>
    obtain ⟨finiteBase, finiteExponent⟩ := hasFiniteConstants_pow.1 finite
    exact .pow (ihb finiteBase) (ihe finiteExponent)
  | func f argument ih => exact .func f (ih (hasFiniteConstants_func.1 finite))

/-! ## Canonical texts -/

/-- A formula with a canonical text has finite constants only. -/
theorem Regular.hasFiniteConstants {e : Formula Float} (h : Regular e) {cs : List Char}
    (print : e.print? = some cs) : e.HasFiniteConstants := by
  induction h generalizing cs with
  | const defined =>
    rw [print?] at print
    split at print
    · exact hasFiniteConstants_const.2 ‹_›
    · cases print
  | var => exact List.forall_mem_nil _
  | sum some terms ih =>
    rw [print?, List.isEmpty_eq_false_iff.2 some] at print
    refine hasFiniteConstants_sum.2 fun m hm => ?_
    obtain ⟨s, print⟩ := exists_printTerms?.1 ⟨_, print⟩ m hm
    exact ih m hm print
  | product some first factors ihf ih =>
    rw [print?] at print
    have members := exists_printFactors?.1 ⟨_, print⟩
    obtain ⟨⟨s, printFirst⟩, others⟩ := List.forall_mem_cons.1 members
    refine hasFiniteConstants_product.2 (List.forall_mem_cons.2 ⟨ihf printFirst, fun m hm => ?_⟩)
    obtain ⟨s, print⟩ := others m hm
    exact ih m hm print
  | pow base exponent ihb ihe =>
    rw [print?] at print
    split at print
    · rename_i printBase printExponent
      exact hasFiniteConstants_pow.2 ⟨ihb printBase, ihe printExponent⟩
    · cases print
  | func f argument ih =>
    rw [print?] at print
    split at print
    · rename_i printArgument
      exact hasFiniteConstants_func.2 (ih printArgument)
    · cases print

/-- **Only a constant that is not finite** keeps a regular formula from having a canonical text. -/
theorem Regular.print?_eq_none_iff {e : Formula Float} (h : Regular e) :
    e.print? = none ↔ ∃ c ∈ e.constants, c.isFinite = false := by
  constructor
  · intro none
    by_contra all
    have finite : e.HasFiniteConstants := by
      intro c hc
      by_contra infinite
      exact all ⟨c, hc, Bool.eq_false_iff.2 infinite⟩
    obtain ⟨cs, print, -⟩ := written_print? (h.printable finite)
    rw [none] at print
    cases print
  · rintro ⟨c, hc, infinite⟩
    cases print : e.print? with
    | none => rfl
    | some cs =>
      rw [h.hasFiniteConstants print c hc] at infinite
      cases infinite

/-! ## Texts have stable canonical forms -/

namespace Formula

/-- **Every text that is read has a stable canonical form.** A text is read as invalid, or as a
regular formula. If all constants of the formula are finite, no numeral being too large for a float,
it has a canonical text, and that text is read as the same formula, so it is its own canonical
text. -/
theorem read_is_stable (text : String) :
    read text = invalid ∨
      Regular (read text) ∧
        ((read text).HasFiniteConstants →
          ∃ cs, (read text).print? = some cs ∧ read (String.ofList cs) = read text ∧
            (read (String.ofList cs)).print? = some cs) := by
  by_cases valid : read text = invalid
  · exact .inl valid
  · have regular := regular_of_read valid
    refine .inr ⟨regular, ?_⟩
    intro finite
    obtain ⟨cs, print, written⟩ := written_print? (regular.printable finite)
    have back : read (String.ofList cs) = read text := written.read_eq
    exact ⟨cs, print, back, by rw [back, print]⟩

/-- Signs, blanks, a bare point and a capital variable all go into the canonical text. -/
theorem read_is_stable_signs :
    (read "+ -2.50*(X ^ .5)--x").HasFiniteConstants ∧
      ∃ cs, (read "+ -2.50*(X ^ .5)--x").print? = some cs ∧
        read (String.ofList cs) = read "+ -2.50*(X ^ .5)--x" ∧
        (read (String.ofList cs)).print? = some cs := by
  have valid : (read "+ -2.50*(X ^ .5)--x").isInvalid = false := by decide +kernel
  have finite : (read "+ -2.50*(X ^ .5)--x").HasFiniteConstants :=
    List.all_eq_true.1 (by decide +kernel)
  refine ⟨finite, ?_⟩
  rcases read_is_stable "+ -2.50*(X ^ .5)--x" with none | ⟨-, stable⟩
  · rw [none] at valid
    cases valid
  · exact stable finite

end Formula

end CurvePuzzle
