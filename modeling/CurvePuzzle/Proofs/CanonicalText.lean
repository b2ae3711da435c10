import CurvePuzzle.Formula.Printer
import CurvePuzzle.Proofs.Acceptance
import CurvePuzzle.Proofs.FormulaParts
import CurvePuzzle.Proofs.NumberText

/-!
# Canonical text is read back

The canonical text of a formula is the text of a phrase. The tree of that phrase is the formula
itself, but for three marks that a text cannot show: a product of one undivided factor is written as
that factor, a leading divisor below a `1`, and a sign before a bare numeral belongs to the numeral.

* `Printable`: the formulas that have a canonical text that tells them apart from all others.
* `reread e`: what the canonical text of `e` is read as; `Printable.reread_eq`.
* `Written e r cs`: the phrases for `r` that `cs` is the text of, when it is the canonical text of
  `e`; each context of a formula asks for another category.
* `written_reread`: every canonical text is written so, brackets included.
* `print_reads_back`: so reading the canonical text of a printable formula gives the formula again.
-/

set_option autoImplicit false

namespace CurvePuzzle

open Phrase

/-- Formulas of finite constants in which every sum has a term, and every product two factors of
which the first is no divisor. -/
inductive Printable : Formula Float → Prop where
  | const {v : Float} (finite : v.isFinite = true) : Printable (.const v)
  | var : Printable .var
  | sum {ts : List (Polarity × Formula Float)} (some : ts ≠ [])
      (terms : ∀ m ∈ ts, Printable m.2) : Printable (.sum ts)
  | product {f : Formula Float} {fs : List (Polarity × Formula Float)} (some : fs ≠ [])
      (first : Printable f) (factors : ∀ m ∈ fs, Printable m.2) :
      Printable (.product ((.direct, f) :: fs))
  | pow {b e : Formula Float} (base : Printable b) (exponent : Printable e) :
      Printable (.pow b e)
  | func (f : FunctionName) {a : Formula Float} (argument : Printable a) :
      Printable (.func f a)

/-- A number behind the sign of a term. -/
def Polarity.signed : Polarity → Float → Float
  | direct, v => v
  | inverse, v => -v

namespace Formula

/-! ## What a canonical text is read as -/

/-- The constant whose bare numeral is the text of the formula. -/
def bareConst? : Formula Float → Option Float
  | const v => if isNegative v then none else some v
  | product [(.direct, const v)] => if isNegative v then none else some v
  | _ => none

/-- The constant that the text of a sum of these terms is read as, its sign being taken for the sign
of a numeral. A lone constant is bracketed, but not a lone product of one constant. -/
def loneConst? : List (Polarity × Formula Float) → Option Float
  | [(p, t)] => if t.isConst then none else t.bareConst?.map p.signed
  | _ => none

/-- What the text of a sum is read as. -/
def rereadSum (lone? : Option Float) (ts : List (Polarity × Formula Float)) : Formula Float :=
  match lone? with
  | some v => const v
  | none => sum ts

/-- What the text of a product is read as. -/
def rereadProduct : List (Polarity × Formula Float) → Formula Float
  | [(.direct, f)] => f
  | (.inverse, f) :: fs => product ((.direct, const 1.0) :: (.inverse, f) :: fs)
  | fs => product fs

mutual

/-- What the canonical text of a formula is read as. -/
def reread : Formula Float → Formula Float
  | const v => const v
  | var => var
  | sum ts => rereadSum (loneConst? ts) (rereadMembers ts)
  | product fs => rereadProduct (rereadMembers fs)
  | pow b e => pow (reread b) (reread e)
  | func f a => func f (reread a)
  | invalid => invalid

/-- What the texts of the members of a sum or product are read as. -/
def rereadMembers : List (Polarity × Formula Float) → List (Polarity × Formula Float)
  | [] => []
  | (p, e) :: ms => (p, reread e) :: rereadMembers ms

end

theorem rereadMembers_eq_self {ms : List (Polarity × Formula Float)}
    (h : ∀ m ∈ ms, m.2.reread = m.2) : rereadMembers ms = ms := by
  induction ms with
  | nil => rfl
  | cons m ms ih =>
    obtain ⟨first, rest⟩ := List.forall_mem_cons.1 h
    rw [rereadMembers, first, ih rest]

end Formula

namespace Printable

open Formula

/-- No sum of a printable term loses its sign to a numeral. -/
theorem loneConst?_eq_none {ts : List (Polarity × Formula Float)}
    (h : ∀ m ∈ ts, Printable m.2) : loneConst? ts = none := by
  match ts with
  | [] => rfl
  | _ :: _ :: _ => rfl
  | [(p, t)] =>
    have term : Printable t := h (p, t) List.mem_cons_self
    rw [loneConst?]
    cases term with
    | @product f fs some =>
      obtain ⟨m, fs, rfl⟩ := List.exists_cons_of_ne_nil some
      cases f <;> rfl
    | _ => rfl

/-- **A printable formula** is read as itself. -/
theorem reread_eq {e : Formula Float} (h : Printable e) : e.reread = e := by
  induction h with
  | const | var => rw [reread]
  | sum some terms ih =>
    rw [reread, loneConst?_eq_none terms, rereadMembers_eq_self ih]
    rfl
  | product some first factors ihf ih =>
    obtain ⟨m, fs, rfl⟩ := List.exists_cons_of_ne_nil some
    rw [reread, rereadMembers, ihf, rereadMembers_eq_self ih]
    rfl
  | pow base exponent ihb ihe => rw [reread, ihb, ihe]
  | func f argument ih => rw [reread, ih]

end Printable

namespace Formula

/-! ## Texts and phrases -/

/-- What a text is a phrase of, when it is the canonical text of a formula: always an expression,
and something tighter unless the formula binds too loosely. The tree of the phrase is `r`. -/
structure Written (e r : Formula Float) (cs : List Char) : Prop where
  expression : ∃ q : Phrase .expression, q.text = cs ∧ q.tree = r
  term : e.precedence ≠ 1 → e.isNegativeConst = false →
    ∃ t : Phrase .term, t.text = cs ∧ t.tree = r ∧ t.numeral?.map Numeral.value = e.bareConst?
  factor : e.precedence ≠ 1 → e.precedence ≠ 2 → e.isNegativeConst = false →
    ∃ f : Phrase .factor, f.text = cs ∧ f.tree = r ∧ f.numeral?.map Numeral.value = e.bareConst?
  primary : e.isAtomic = true → ∃ p : Phrase .primary, p.text = cs ∧ p.tree = r

namespace Written

variable {e r : Formula Float} {cs : List Char}

theorem of_term {t : Phrase .term} (text : t.text = cs) (tree : t.tree = r)
    (loose : e.precedence = 2) (bare : t.numeral?.map Numeral.value = e.bareConst?) :
    Written e r cs := by
  refine ⟨⟨ofTerm [] t, by rw [text_ofTerm]; exact text, tree⟩, ?_, ?_, ?_⟩
  · intro _ _
    exact ⟨t, text, tree, bare⟩
  · intro _ h
    exact absurd loose h
  · intro h
    cases e <;> cases loose
    cases h

theorem of_factor {f : Phrase .factor} (text : f.text = cs) (tree : f.tree = r)
    (bare : f.numeral?.map Numeral.value = e.bareConst?)
    (primary : e.isAtomic = true → ∃ p : Phrase .primary, p.text = cs ∧ p.tree = r) :
    Written e r cs := by
  have asTerm : (Phrase.term f noFactor).text = cs := by
    rw [Phrase.text, Phrase.text, List.append_nil, text]
  refine ⟨⟨ofFactor f, by rw [text_ofFactor]; exact text, tree⟩, ?_, ?_, primary⟩
  · intro _ _
    exact ⟨Phrase.term f noFactor, asTerm, tree, bare⟩
  · intro _ _ _
    exact ⟨f, text, tree, bare⟩

theorem of_primary {p : Phrase .primary} (text : p.text = cs) (tree : p.tree = r)
    (bare : p.numeral?.map Numeral.value = e.bareConst?) : Written e r cs :=
  of_factor (f := base p) text tree bare fun _ => ⟨p, text, tree⟩

theorem group {cs : List Char} (h : Written e r cs) :
    ∃ p : Phrase .primary, p.text = bracket true cs ∧ p.tree = r ∧ p.numeral? = none := by
  obtain ⟨q, rfl, rfl⟩ := h.expression
  exact ⟨Phrase.group q, rfl, rfl, rfl⟩

/-- **A term**, in brackets where it needs them. -/
theorem asTerm (h : Written e r cs) (lone : Bool) :
    ∃ t : Phrase .term, t.text = bracket (e.isBracketedTerm lone) cs ∧ t.tree = r ∧
      (lone = true →
        t.numeral?.map Numeral.value = if e.isConst then none else e.bareConst?) := by
  cases needed : e.isBracketedTerm lone with
  | true =>
    obtain ⟨p, text, tree, none⟩ := h.group
    refine ⟨Phrase.term (base p) noFactor, by rw [Phrase.text, Phrase.text, Phrase.text,
      List.append_nil, text], tree, fun isLone => ?_⟩
    have bare : (if e.isConst then Option.none else e.bareConst?) = .none := by
      cases e with
      | product fs => cases lone <;> cases needed
      | _ => rfl
    rw [bare]
    exact congrArg (Option.map Numeral.value) none
  | false =>
    simp only [isBracketedTerm, Bool.or_eq_false_iff, beq_eq_false_iff_ne] at needed
    obtain ⟨t, text, tree, bare⟩ := h.term needed.1.1 needed.1.2
    refine ⟨t, text, tree, fun isLone => ?_⟩
    have other : e.isConst = false := by simpa [isLone] using needed.2
    rw [bare, other]
    rfl

/-- **A factor**, in brackets where it needs them; alone in a product it may be a numeral. -/
theorem asFactor (h : Written e r cs) :
    ∃ f : Phrase .factor, f.text = bracket e.isBracketedFactor cs ∧ f.tree = r ∧
      f.numeral?.map Numeral.value = (product [(.direct, e)]).bareConst? := by
  cases needed : e.isBracketedFactor with
  | true =>
    obtain ⟨p, text, tree, none⟩ := h.group
    refine ⟨base p, text, tree, ?_⟩
    have bare : (product [(.direct, e)]).bareConst? = .none := by
      cases e with
      | const v =>
        have negative : isNegative v = true := by
          simpa [isBracketedFactor, precedence, isNegativeConst] using needed
        rw [bareConst?, if_pos negative]
      | _ => rfl
    rw [bare]
    exact congrArg (Option.map Numeral.value) none
  | false =>
    simp only [isBracketedFactor, Bool.or_eq_false_iff, beq_eq_false_iff_ne] at needed
    obtain ⟨f, text, tree, bare⟩ := h.factor needed.1.1 needed.1.2 needed.2
    refine ⟨f, text, tree, bare.trans ?_⟩
    cases e with
    | product => exact absurd rfl needed.1.2
    | _ => rfl

/-- **A base or exponent**, in brackets unless it is atomic. -/
theorem asPrimary (h : Written e r cs) :
    ∃ p : Phrase .primary, p.text = bracket (!e.isAtomic) cs ∧ p.tree = r := by
  cases atomic : e.isAtomic with
  | true => exact h.primary atomic
  | false =>
    obtain ⟨p, text, tree, -⟩ := h.group
    exact ⟨p, text, tree⟩

end Written

/-! ## One lemma for each node -/

theorem written_const {n : Numeral} {v : Float} (h : n.Writes v) :
    Written (const v) (const v) (Decimal.text Decimal.plain v) := by
  obtain ⟨text, value⟩ := h
  rw [text]
  cases sign : isNegative v with
  | false =>
    rw [sign] at value
    refine .of_primary (p := numeral n) rfl (congrArg const value.symm) ?_
    rw [bareConst?, sign]
    exact congrArg some value.symm
  | true =>
    rw [sign] at value
    refine ⟨⟨ofTerm [.inverse] (Phrase.term (base (numeral n)) noFactor), ?_, ?_⟩, ?_, ?_, ?_⟩
    · rw [text_ofTerm, Phrase.text, Phrase.text, Phrase.text, Phrase.text, List.append_nil]
      rfl
    · exact congrArg const value.symm
    · intro _ h
      exact absurd sign (by simpa [isNegativeConst] using h)
    · intro _ _ h
      exact absurd sign (by simpa [isNegativeConst] using h)
    · intro h
      simp [isAtomic, sign] at h

theorem written_var : Written var var ['x'] := .of_primary (p := Phrase.var false) rfl rfl rfl

theorem written_pow {b b' e e' : Formula Float} {s t : List Char} (hb : Written b b' s)
    (he : Written e e' t) :
    Written (pow b e) (pow b' e') (bracket (!b.isAtomic) s ++ '^' :: bracket (!e.isAtomic) t) := by
  obtain ⟨p, textP, treeP⟩ := hb.asPrimary
  obtain ⟨q, textQ, treeQ⟩ := he.asPrimary
  refine .of_factor (f := Phrase.power p (base q)) ?_ ?_ rfl (fun h => by cases h)
  · rw [Phrase.text, Phrase.text, textP, textQ]
  · rw [Phrase.tree, Phrase.tree, treeP, treeQ]

theorem written_func {f : FunctionName} {a a' : Formula Float} {s : List Char}
    (ha : Written a a' s) : Written (func f a) (func f a') (f.word ++ bracket true s) := by
  obtain ⟨q, rfl, rfl⟩ := ha.expression
  exact .of_primary (p := Phrase.call f q) rfl rfl rfl

theorem printTerms?_cons {lone first : Bool} {p : Polarity} {t : Formula Float}
    {ts : List (Polarity × Formula Float)} {cs : List Char} :
    printTerms? lone first ((p, t) :: ts) = some cs ↔
      ∃ s rest, t.print? = some s ∧ printTerms? lone false ts = some rest ∧
        termMark first lone p ++ bracket (t.isBracketedTerm lone) s ++ rest = cs := by
  rw [printTerms?]
  cases t.print? <;> cases printTerms? lone false ts <;> simp

theorem printFactors?_cons {first : Bool} {p : Polarity} {f : Formula Float}
    {fs : List (Polarity × Formula Float)} {cs : List Char} :
    printFactors? first ((p, f) :: fs) = some cs ↔
      ∃ s rest, f.print? = some s ∧ printFactors? false fs = some rest ∧
        factorMark first p ++ bracket f.isBracketedFactor s ++ rest = cs := by
  rw [printFactors?]
  cases f.print? <;> cases printFactors? false fs <;> simp

/-- Each of the formulas is written as what it is read as, if it has a canonical text. -/
def AllWritten (ms : List (Polarity × Formula Float)) : Prop :=
  ∀ m ∈ ms, ∀ s, m.2.print? = some s → Written m.2 m.2.reread s

/-- The further terms of a sum. -/
theorem exists_terms_of_print? {ts : List (Polarity × Formula Float)} (h : AllWritten ts)
    {cs : List Char} (print : printTerms? false false ts = some cs) :
    ∃ rest : Phrase .terms, rest.text = cs ∧ rest.tree = rereadMembers ts := by
  induction ts generalizing cs with
  | nil =>
    rw [printTerms?] at print
    exact ⟨noTerm, Option.some.inj print, rfl⟩
  | cons m ts ih =>
    obtain ⟨p, e⟩ := m
    obtain ⟨written, others⟩ := List.forall_mem_cons.1 h
    obtain ⟨s, cs, printE, printRest, rfl⟩ := printTerms?_cons.1 print
    obtain ⟨rest, rfl, treeRest⟩ := ih others printRest
    obtain ⟨t, text, tree, -⟩ := (written s printE).asTerm false
    refine ⟨nextTerm p [] t rest, ?_, ?_⟩
    · simp [Phrase.text, text, termMark, signText]
    · rw [Phrase.tree, treeRest, tree, rereadMembers]
      rfl

/-- The further factors of a product. -/
theorem exists_factors_of_print? {fs : List (Polarity × Formula Float)} (h : AllWritten fs)
    {cs : List Char} (print : printFactors? false fs = some cs) :
    ∃ rest : Phrase .factors, rest.text = cs ∧ rest.tree = rereadMembers fs := by
  induction fs generalizing cs with
  | nil =>
    rw [printFactors?] at print
    exact ⟨noFactor, Option.some.inj print, rfl⟩
  | cons m fs ih =>
    obtain ⟨p, e⟩ := m
    obtain ⟨written, others⟩ := List.forall_mem_cons.1 h
    obtain ⟨s, cs, printE, printRest, rfl⟩ := printFactors?_cons.1 print
    obtain ⟨rest, rfl, treeRest⟩ := ih others printRest
    obtain ⟨f, text, tree, -⟩ := (written s printE).asFactor
    refine ⟨nextFactor p [] f rest, ?_, ?_⟩
    · simp [Phrase.text, text, factorMark, signText]
    · rw [Phrase.tree, treeRest, tree, rereadMembers]
      rfl

theorem written_of_sum {ts : List (Polarity × Formula Float)} {r : Formula Float}
    {q : Phrase .expression} {cs : List Char} (text : q.text = cs) (tree : q.tree = r) :
    Written (sum ts) r cs :=
  ⟨⟨q, text, tree⟩, fun h => absurd rfl h, fun h => absurd rfl h, fun h => by cases h⟩

/-- One sign makes a sum of one term, or belongs to a numeral. -/
theorem signedTree_single (lone : Option Numeral) (e : Formula Float) (p : Polarity) :
    signedTree lone e [p] = rereadSum ((lone.map Numeral.value).map p.signed) [(p, e)] := by
  cases lone with
  | none => rfl
  | some n => cases p <;> rfl

/-- **A sum** of one term keeps its sign; a sum of more terms starts with a sign only if its first
term is negated. -/
theorem written_sum {ts : List (Polarity × Formula Float)} (h : AllWritten ts) {cs : List Char}
    (print : (sum ts).print? = some cs) : Written (sum ts) (sum ts).reread cs := by
  rw [print?] at print
  match ts with
  | [] => cases print
  | [(p, e)] =>
    obtain ⟨s, rest, printE, printRest, rfl⟩ := printTerms?_cons.1 print
    obtain ⟨t, text, tree, bare⟩ := (h (p, e) List.mem_cons_self s printE).asTerm true
    rw [printTerms?] at printRest
    obtain rfl := Option.some.inj printRest
    have mark : termMark true true p = [p.termSign] := by cases p <;> rfl
    have textQ : (ofTerm [p] t).text = p.termSign :: t.text := text_ofTerm _ _
    refine written_of_sum (q := ofTerm [p] t) ?_ ?_
    · rw [textQ, text, List.append_nil]
      exact congrArg (· ++ _) mark.symm
    · show signedTree t.numeral? t.tree [p] = _
      rw [signedTree_single, bare rfl, tree, reread, rereadMembers, rereadMembers, loneConst?]
      split <;> rfl
  | (p, e) :: m :: ts =>
    obtain ⟨written, others⟩ := List.forall_mem_cons.1 h
    obtain ⟨s, cs, printE, printRest, rfl⟩ := printTerms?_cons.1 print
    obtain ⟨rest, rfl, treeRest⟩ := exists_terms_of_print? others printRest
    obtain ⟨t, text, tree, -⟩ := (written s printE).asTerm false
    have reread : (sum ((p, e) :: m :: ts)).reread =
        sum ((p, e.reread) :: rereadMembers (m :: ts)) := by
      rw [Formula.reread, rereadMembers]
      rfl
    rw [reread]
    cases p with
    | direct =>
      refine written_of_sum (q := Phrase.expression [] t rest) ?_ ?_
      · rw [Phrase.text, text]
        rfl
      · simp only [Phrase.tree, treeRest, tree, rereadMembers]
    | inverse =>
      refine written_of_sum (q := Phrase.expression [.inverse] t rest) ?_ ?_
      · rw [Phrase.text, text]
        rfl
      · simp only [Phrase.tree, treeRest, tree, signedTree, rereadMembers]

/-- A leading divisor is written below a numeral. -/
theorem exists_one : ∃ n : Numeral, n.text = ['1'] ∧ n.value = 1.0 := by
  obtain ⟨n, text, value⟩ := Numeral.exists_writes (v := 1.0) (by decide)
  have plus : isNegative 1.0 = false := by decide
  have written : Decimal.text Decimal.plain 1.0 = ['1'] := by decide
  rw [plus] at text value
  exact ⟨n, text.symm.trans written, value.symm⟩

/-- **A product** of one undivided factor is written as the factor, and a leading divisor below
`1`. -/
theorem written_product {fs : List (Polarity × Formula Float)} (h : AllWritten fs)
    {cs : List Char} (print : (product fs).print? = some cs) :
    Written (product fs) (product fs).reread cs := by
  rw [print?] at print
  match fs with
  | [] => cases print
  | (p, f) :: fs =>
    obtain ⟨written, others⟩ := List.forall_mem_cons.1 h
    obtain ⟨s, cs, printF, printRest, rfl⟩ := printFactors?_cons.1 print
    obtain ⟨rest, rfl, treeRest⟩ := exists_factors_of_print? others printRest
    obtain ⟨g, text, tree, bare⟩ := (written s printF).asFactor
    rw [reread, rereadMembers]
    cases p with
    | inverse =>
      obtain ⟨n, textN, one⟩ := exists_one
      refine .of_term (t := Phrase.term (base (numeral n)) (nextFactor .inverse [] g rest))
        ?_ ?_ rfl rfl
      · rw [Phrase.text, Phrase.text, Phrase.text, Phrase.text, textN, text]
        rfl
      · simp only [Phrase.tree, treeRest, tree, signedTree, one, rereadProduct]
    | direct =>
      refine .of_term (t := Phrase.term g rest) ?_ ?_ rfl ?_
      · rw [Phrase.text, text]
        rfl
      · cases fs with
        | nil =>
          rw [Phrase.tree, treeRest, tree]
          rfl
        | cons m fs =>
          rw [Phrase.tree, treeRest, tree, rereadMembers]
          rfl
      · cases rest with
        | noFactor =>
          cases fs with
          | nil => exact bare
          | cons m fs => cases treeRest
        | nextFactor =>
          cases fs with
          | nil => cases treeRest
          | cons m fs => cases f <;> rfl

/-- **Every canonical text is written** as a phrase, whose tree is what the text is read as. -/
theorem written_reread (e : Formula Float) :
    ∀ cs, e.print? = some cs → Written e e.reread cs := by
  induction e using inductionOn with
  | const v =>
    intro cs print
    rw [print?] at print
    split at print
    · rename_i finite
      obtain ⟨n, writes⟩ := Numeral.exists_writes finite
      obtain rfl := Option.some.inj print
      rw [reread]
      exact written_const writes
    · cases print
  | var =>
    intro cs print
    rw [print?] at print
    obtain rfl := Option.some.inj print
    rw [reread]
    exact written_var
  | sum ts ih => exact fun cs print => written_sum ih print
  | product fs ih => exact fun cs print => written_product ih print
  | pow b e ihb ihe =>
    intro cs print
    rw [print?] at print
    split at print
    · rename_i s t printB printE
      obtain rfl := Option.some.inj print
      rw [reread]
      exact written_pow (ihb s printB) (ihe t printE)
    · cases print
  | func f a ih =>
    intro cs print
    rw [print?] at print
    split at print
    · rename_i s printA
      obtain rfl := Option.some.inj print
      rw [reread]
      exact written_func (ih s printA)
    · cases print
  | invalid =>
    intro cs print
    rw [print?] at print
    cases print

/-- A printer of members, one behind the other, finds a text exactly when all of them have one. -/
theorem exists_print_members (print : Bool → List (Polarity × Formula Float) → Option (List Char))
    {piece : Bool → Polarity → Formula Float → List Char → List Char}
    (nil : ∀ first, print first [] = some [])
    (cons : ∀ {first p e ms cs}, print first ((p, e) :: ms) = some cs ↔
      ∃ s rest, e.print? = some s ∧ print false ms = some rest ∧ piece first p e s ++ rest = cs)
    {first : Bool} {ms : List (Polarity × Formula Float)} :
    (∃ cs, print first ms = some cs) ↔ ∀ m ∈ ms, ∃ s, m.2.print? = some s := by
  induction ms generalizing first with
  | nil => simp [nil]
  | cons m ms ih =>
    rw [List.forall_mem_cons, ← @ih false]
    constructor
    · rintro ⟨cs, print⟩
      obtain ⟨s, rest, print, others, -⟩ := cons.1 print
      exact ⟨⟨s, print⟩, rest, others⟩
    · rintro ⟨⟨s, print⟩, rest, others⟩
      exact ⟨_, cons.2 ⟨s, rest, print, others, rfl⟩⟩

theorem exists_printTerms? {lone first : Bool} {ts : List (Polarity × Formula Float)} :
    (∃ cs, printTerms? lone first ts = some cs) ↔ ∀ m ∈ ts, ∃ s, m.2.print? = some s :=
  exists_print_members (printTerms? lone) (fun _ => by rw [printTerms?]) printTerms?_cons

theorem exists_printFactors? {first : Bool} {fs : List (Polarity × Formula Float)} :
    (∃ cs, printFactors? first fs = some cs) ↔ ∀ m ∈ fs, ∃ s, m.2.print? = some s :=
  exists_print_members printFactors? (fun _ => by rw [printFactors?]) printFactors?_cons

/-- Every printable formula has a canonical text. -/
theorem exists_print? {e : Formula Float} (h : Printable e) : ∃ cs, e.print? = some cs := by
  induction h with
  | const finite => exact ⟨_, by rw [print?, if_pos finite]⟩
  | var => exact ⟨['x'], by rw [print?]⟩
  | sum some terms ih =>
    rw [print?, List.isEmpty_eq_false_iff.2 some]
    exact exists_printTerms?.2 ih
  | product some first factors ihf ih =>
    rw [print?]
    exact exists_printFactors?.2 (List.forall_mem_cons.2 ⟨ihf, ih⟩)
  | pow base exponent ihb ihe =>
    obtain ⟨s, printB⟩ := ihb
    obtain ⟨t, printE⟩ := ihe
    exact ⟨_, by rw [print?, printB, printE]⟩
  | func f argument ih =>
    obtain ⟨s, print⟩ := ih
    exact ⟨_, by rw [print?, print]⟩

/-- **Every printable formula is written** as a phrase that it is the tree of. -/
theorem written_print? {e : Formula Float} (h : Printable e) :
    ∃ cs, e.print? = some cs ∧ Written e e cs := by
  obtain ⟨cs, print⟩ := exists_print? h
  have written := written_reread e cs print
  rw [h.reread_eq] at written
  exact ⟨cs, print, written⟩

/-! ## Reading back -/

theorem not_isBlank_of_allowed {c : Char} (h : c ∈ Reading.allowedChars) :
    Text.isBlank c = false := by
  have all : Reading.allowedChars.all (fun c => !Text.isBlank c) = true := by decide
  simpa using List.all_eq_true.1 all c h

theorem not_isBlank_of_word {f : FunctionName} {c : Char} (h : c ∈ f.word) :
    Text.isBlank c = false := by
  have all : f.word.all (fun c => !Text.isBlank c) = true := by cases f <;> decide
  simpa using List.all_eq_true.1 all c h

/-- Nothing that is spelled with allowed characters and names is blank. -/
theorem not_isBlank_of_spelled {names : List FunctionName} {cs : List Char}
    (h : Spelled names cs) : ∀ c ∈ cs, Text.isBlank c = false := by
  induction h with
  | nil =>
    intro c hc
    cases hc
  | char allowed rest ih => exact List.forall_mem_cons.2 ⟨not_isBlank_of_allowed allowed, ih⟩
  | name known rest ih =>
    intro c hc
    rcases List.mem_append.1 hc with hc | hc
    · exact not_isBlank_of_word hc
    · exact List.forall_mem_cons.2 ⟨by decide, ih⟩ c hc

/-- So squeezing leaves a phrase alone. -/
theorem squeeze_text (p : Phrase .expression) :
    Reading.squeeze (String.ofList p.text) = p.text := by
  unfold Reading.squeeze
  rw [String.toList_ofList, List.filter_eq_self]
  intro c hc
  rw [not_isBlank_of_spelled p.spelled_text c hc]
  rfl

/-- What a formula is written as is read as the tree of the phrase. -/
theorem Written.read_eq {e r : Formula Float} {cs : List Char} (h : Written e r cs) :
    read (String.ofList cs) = r := by
  obtain ⟨p, rfl, tree⟩ := h.expression
  exact (read_of_text (squeeze_text p).symm).trans tree

/-- **What a canonical text is read as.** -/
theorem read_print? {e : Formula Float} {cs : List Char} (print : e.print? = some cs) :
    read (String.ofList cs) = e.reread :=
  (written_reread e cs print).read_eq

/-- **Canonical text is read back** as the very formula it was printed from, its constants bit by
bit. -/
theorem print_reads_back {e : Formula Float} (h : Printable e) :
    ∃ cs, e.print? = some cs ∧ read (String.ofList cs) = e := by
  obtain ⟨cs, print, written⟩ := written_print? h
  obtain ⟨p, rfl, tree⟩ := written.expression
  exact ⟨p.text, print, (read_of_text (squeeze_text p).symm).trans tree⟩

/-- A negative zero behind a sign is told apart from zero, and a negative base from a negated
power. -/
theorem negative_zero_reads_back :
    ∃ cs, (product [(.direct, sum [(.inverse, const (-0.0))]),
        (.inverse, pow (const (-1.5)) var)]).print? = some cs ∧
      read (String.ofList cs) = product [(.direct, sum [(.inverse, const (-0.0))]),
        (.inverse, pow (const (-1.5)) var)] := by
  apply print_reads_back
  have zero : Printable (const (-0.0)) := .const (by decide +kernel)
  have base : Printable (const (-1.5)) := .const (by decide +kernel)
  refine .product (List.cons_ne_nil _ _) (.sum (List.cons_ne_nil _ _) ?_) ?_
  · intro m hm
    rw [List.mem_singleton.1 hm]
    exact zero
  · intro m hm
    rw [List.mem_singleton.1 hm]
    exact .pow base .var

end Formula

end CurvePuzzle
