import CurvePuzzle.Proofs.Claiming
import CurvePuzzle.Proofs.ConstantTolerance
import CurvePuzzle.Proofs.Reordering

/-!
# Equality and order

The members of sums and products claim equal partners greedily, and the tolerance of constants is
not transitive.

* `agree_is_symmetric`: equality is symmetric all the same, for all formulas.
* `agree_of_zigzag`: formulas with an equal one in common have all equal ones in common, if this is
  so for their constants.
* `agree_ignores_order`: equality then ignores the order of terms and factors.
  `agree_depends_on_order`: otherwise it may not.
-/

set_option autoImplicit false

namespace CurvePuzzle

namespace Formula

variable {α : Type} [Scalar α] [DecidableLT α]

/-- Are two members equal, polarity included? -/
def agreeMember (m n : Polarity × Formula α) : Bool := m.1 == n.1 && agree m.2 n.2

theorem agreeMember_iff {m n : Polarity × Formula α} :
    agreeMember m n = true ↔ m.1 = n.1 ∧ agree m.2 n.2 = true := by
  rw [agreeMember, Bool.and_eq_true, beq_iff_eq]

theorem agreeAll_eq (ts us : List (Polarity × Formula α)) :
    agreeAll ts us = claimAll agreeMember ts us := by
  induction ts generalizing us with
  | nil => rfl
  | cons m ts ih =>
    have test : (fun u => m.1 == u.1 && agree m.2 u.2) = agreeMember m := rfl
    rw [agreeAll, claimAll, test]
    cases claim? (agreeMember m) us with
    | none => rfl
    | some rest => exact ih rest

theorem agree_sum (ts us : List (Polarity × Formula α)) :
    agree (sum ts) (sum us) = claimAll agreeMember ts us := by
  rw [agree, agreeAll_eq]

theorem agree_product (fs gs : List (Polarity × Formula α)) :
    agree (product fs) (product gs) = claimAll agreeMember fs gs := by
  rw [agree, agreeAll_eq]

theorem agree_func (f : FunctionName) (a b : Formula α) :
    agree (func f a) (func f b) = agree a b := by
  rw [agree, beq_self_eq_true, Bool.true_and]

/-! ## Symmetry -/

theorem agree_comm_of (symm : ∀ u v : α, closeTo u v = closeTo v u) (a b : Formula α) :
    agree a b = agree b a := by
  have members {ts us : List (Polarity × Formula α)}
      (ih : ∀ m ∈ ts, ∀ b, agree m.2 b = agree b m.2) :
      claimAll agreeMember ts us = claimAll agreeMember us ts := by
    rw [claimAll_comm]
    refine claimAll_congr fun n _ m hm => ?_
    rw [agreeMember, agreeMember, ih m hm, BEq.comm]
  induction a using inductionOn generalizing b with
  | const u => cases b with
    | const v => exact symm u v
    | _ => rfl
  | var => cases b <;> rfl
  | sum ts ih => cases b with
    | sum us =>
      rw [agree_sum, agree_sum]
      exact members ih
    | _ => rfl
  | product fs ih => cases b with
    | product gs =>
      rw [agree_product, agree_product]
      exact members ih
    | _ => rfl
  | pow b' e ihb ihe => cases b with
    | pow c d => rw [agree, agree, ihb, ihe]
    | _ => rfl
  | func f a ih => cases b with
    | func g b => rw [agree, agree, ih, BEq.comm]
    | _ => rfl
  | invalid => cases b <;> rfl

/-- **Equality is symmetric**, for all formulas and all constants. -/
theorem agree_is_symmetric (a b : Formula Float) : agree a b = agree b a :=
  agree_comm_of closeTo_comm a b

/-! ## Unambiguous constants -/

/-- How two formulas can be equal. -/
inductive AgreeBy : Formula α → Formula α → Prop where
  | const {u v : α} (close : closeTo u v = true) : AgreeBy (const u) (const v)
  | var : AgreeBy var var
  | sum {ts us : List (Polarity × Formula α)} (terms : claimAll agreeMember ts us = true) :
      AgreeBy (sum ts) (sum us)
  | product {fs gs : List (Polarity × Formula α)} (factors : claimAll agreeMember fs gs = true) :
      AgreeBy (product fs) (product gs)
  | pow {a b c d : Formula α} (base : agree a c = true) (exponent : agree b d = true) :
      AgreeBy (pow a b) (pow c d)
  | func {f : FunctionName} {a b : Formula α} (argument : agree a b = true) :
      AgreeBy (func f a) (func f b)
  | invalid : AgreeBy invalid invalid

theorem agree_cases {a b : Formula α} (h : agree a b = true) : AgreeBy a b := by
  cases a with
  | const u => cases b with
    | const v => exact .const h
    | _ => cases h
  | var => cases b with
    | var => exact .var
    | _ => cases h
  | sum ts => cases b with
    | sum us => exact .sum (by rwa [agree_sum] at h)
    | _ => cases h
  | product fs => cases b with
    | product gs => exact .product (by rwa [agree_product] at h)
    | _ => cases h
  | pow b' e => cases b with
    | pow c d =>
      rw [agree, Bool.and_eq_true] at h
      exact .pow h.1 h.2
    | _ => cases h
  | func f a => cases b with
    | func g b =>
      rw [agree, Bool.and_eq_true, beq_iff_eq] at h
      obtain ⟨rfl, argument⟩ := h
      exact .func argument
    | _ => cases h
  | invalid => cases b with
    | invalid => exact .invalid
    | _ => cases h

section Unambiguous

variable {us vs : List α}

/-- Partners among members are unambiguous if those of each member on the left are. -/
theorem rectangular_members {ts ts' ws ws' : List (Polarity × Formula α)}
    (h : ∀ m ∈ ts, ∀ m' ∈ ts', ∀ n ∈ ws, ∀ n' ∈ ws', agree m.2 n.2 = true →
      agree m'.2 n.2 = true → agree m'.2 n'.2 = true → agree m.2 n'.2 = true) :
    ∀ m ∈ ts, ∀ m' ∈ ts', ∀ n ∈ ws, ∀ n' ∈ ws', agreeMember m n = true →
      agreeMember m' n = true → agreeMember m' n' = true → agreeMember m n' = true := by
  intro m hm m' hm' n hn n' hn' down up again
  obtain ⟨sign, down⟩ := agreeMember_iff.1 down
  obtain ⟨sign', up⟩ := agreeMember_iff.1 up
  obtain ⟨sign'', again⟩ := agreeMember_iff.1 again
  exact agreeMember_iff.2 ⟨sign.trans (sign'.symm.trans sign''),
    h m hm m' hm' n hn n' hn' down up again⟩

/-- **Unambiguous constants make unambiguous formulas.** -/
theorem agree_of_zigzag (clear : Rectangular closeTo us vs) {a a' b b' : Formula α}
    (ha : a.Over (· ∈ us)) (ha' : a'.Over (· ∈ us)) (hb : b.Over (· ∈ vs))
    (hb' : b'.Over (· ∈ vs)) (down : agree a b = true) (up : agree a' b = true)
    (again : agree a' b' = true) : agree a b' = true := by
  have members {ts ts' ws ws' : List (Polarity × Formula α)}
      (ih : ∀ m ∈ ts, ∀ {a' b b' : Formula α}, m.2.Over (· ∈ us) → a'.Over (· ∈ us) →
        b.Over (· ∈ vs) → b'.Over (· ∈ vs) → agree m.2 b = true → agree a' b = true →
        agree a' b' = true → agree m.2 b' = true)
      (hts : ∀ m ∈ ts, m.2.Over (· ∈ us)) (hts' : ∀ m ∈ ts', m.2.Over (· ∈ us))
      (hws : ∀ m ∈ ws, m.2.Over (· ∈ vs)) (hws' : ∀ m ∈ ws', m.2.Over (· ∈ vs))
      (down : claimAll agreeMember ts ws = true) (up : claimAll agreeMember ts' ws = true)
      (again : claimAll agreeMember ts' ws' = true) : claimAll agreeMember ts ws' = true := by
    refine claimAll_of_matched ?_ ((matched_of_claimAll down).zigzag (matched_of_claimAll up)
      (matched_of_claimAll again) ?_)
    · exact rectangular_members fun m hm m' hm' n hn n' hn' =>
        ih m hm (hts m hm) (hts m' hm') (hws' n hn) (hws' n' hn')
    · exact rectangular_members fun m hm m' hm' n hn n' hn' =>
        ih m hm (hts m hm) (hts' m' hm') (hws n hn) (hws' n' hn')
  induction a using inductionOn generalizing a' b b' with
  | const u =>
    cases agree_cases down
    cases agree_cases up
    cases agree_cases again
    exact clear _ (over_const.1 ha) _ (over_const.1 ha') _ (over_const.1 hb) _
      (over_const.1 hb') down up again
  | var =>
    cases agree_cases down
    cases agree_cases up
    exact again
  | sum ts ih =>
    cases agree_cases down with | sum claimed =>
    cases agree_cases up with | sum claimed' =>
    cases agree_cases again with | sum claimed'' =>
    rw [agree_sum]
    exact members ih (over_sum.1 ha) (over_sum.1 ha') (over_sum.1 hb) (over_sum.1 hb') claimed
      claimed' claimed''
  | product fs ih =>
    cases agree_cases down with | product claimed =>
    cases agree_cases up with | product claimed' =>
    cases agree_cases again with | product claimed'' =>
    rw [agree_product]
    exact members ih (over_product.1 ha) (over_product.1 ha') (over_product.1 hb)
      (over_product.1 hb') claimed claimed' claimed''
  | pow b e ihb ihe =>
    cases agree_cases down with | pow downB downE =>
    cases agree_cases up with | pow upB upE =>
    cases agree_cases again with | pow againB againE =>
    rw [over_pow] at ha ha' hb hb'
    rw [agree, Bool.and_eq_true]
    exact ⟨ihb ha.1 ha'.1 hb.1 hb'.1 downB upB againB, ihe ha.2 ha'.2 hb.2 hb'.2 downE upE againE⟩
  | func f a ih =>
    cases agree_cases down with | func argument =>
    cases agree_cases up with | func argument' =>
    cases agree_cases again with | func argument'' =>
    rw [over_func] at ha ha' hb hb'
    rw [agree_func]
    exact ih ha ha' hb hb' argument argument' argument''
  | invalid =>
    cases agree_cases down
    cases agree_cases up
    exact again

/-- Members with unambiguous constants have unambiguous partners. -/
theorem rectangular_agreeMember (clear : Rectangular closeTo us vs)
    {ts ws : List (Polarity × Formula α)} (hts : ∀ m ∈ ts, m.2.Over (· ∈ us))
    (hws : ∀ m ∈ ws, m.2.Over (· ∈ vs)) : Rectangular agreeMember ts ws :=
  rectangular_members fun m hm m' hm' n hn n' hn' =>
    agree_of_zigzag clear (hts m hm) (hts m' hm') (hws n hn) (hws n' hn')

/-- With unambiguous constants, the members claim partners whatever their order. -/
theorem claimAll_agreeMember_perm (clear : Rectangular closeTo us vs)
    {ts ts' ws : List (Polarity × Formula α)} (hts : ∀ m ∈ ts, m.2.Over (· ∈ us))
    (hws : ∀ m ∈ ws, m.2.Over (· ∈ vs)) (perm : ts.Perm ts') :
    claimAll agreeMember ts ws = claimAll agreeMember ts' ws := by
  have rect := rectangular_agreeMember clear hts hws
  have rect' := rect.mono perm.symm.subset (List.Subset.refl ws)
  rw [Bool.eq_iff_iff, claimAll_iff_matched rect, claimAll_iff_matched rect']
  exact ⟨fun h => h.perm_left perm, fun h => h.perm_left perm.symm⟩

/-- **Reordering the left side** of a comparison with unambiguous constants. -/
theorem agree_eq_of_reordered (clear : Rectangular closeTo us vs) {a a' : Formula α}
    (h : Reordered a a') :
    ∀ {b : Formula α}, a.Over (· ∈ us) → b.Over (· ∈ vs) → agree a b = agree a' b := by
  have member {p : Polarity} {t t' : Formula α} {before after ws : List (Polarity × Formula α)}
      (ih : ∀ {b : Formula α}, t.Over (· ∈ us) → b.Over (· ∈ vs) → agree t b = agree t' b)
      (hts : ∀ m ∈ before ++ (p, t) :: after, m.2.Over (· ∈ us))
      (hws : ∀ m ∈ ws, m.2.Over (· ∈ vs)) :
      claimAll agreeMember (before ++ (p, t) :: after) ws =
        claimAll agreeMember (before ++ (p, t') :: after) ws := by
    have ht := hts (p, t) (List.mem_append_right _ List.mem_cons_self)
    refine claimAll_exchange (fun n hn => ?_) before after
    rw [agreeMember, agreeMember, ih ht (hws n hn)]
  induction h with
  | refl a => exact fun _ _ => rfl
  | trans first _ ih ih' => exact fun ha hb => (ih ha hb).trans (ih' (first.over_of_over ha) hb)
  | terms perm =>
    intro b ha hb
    cases b with
    | sum ws =>
      rw [agree_sum, agree_sum]
      exact claimAll_agreeMember_perm clear (over_sum.1 ha) (over_sum.1 hb) perm
    | _ => rfl
  | factors perm =>
    intro b ha hb
    cases b with
    | product ws =>
      rw [agree_product, agree_product]
      exact claimAll_agreeMember_perm clear (over_product.1 ha) (over_product.1 hb) perm
    | _ => rfl
  | term before after _ ih =>
    intro b ha hb
    cases b with
    | sum ws =>
      rw [agree_sum, agree_sum]
      exact member ih (over_sum.1 ha) (over_sum.1 hb)
    | _ => rfl
  | factor before after _ ih =>
    intro b ha hb
    cases b with
    | product ws =>
      rw [agree_product, agree_product]
      exact member ih (over_product.1 ha) (over_product.1 hb)
    | _ => rfl
  | base _ ih =>
    intro b ha hb
    cases b with
    | pow c d => rw [agree, agree, ih (over_pow.1 ha).1 (over_pow.1 hb).1]
    | _ => rfl
  | exponent _ ih =>
    intro b ha hb
    cases b with
    | pow c d => rw [agree, agree, ih (over_pow.1 ha).2 (over_pow.1 hb).2]
    | _ => rfl
  | argument _ ih =>
    intro b ha hb
    cases b with
    | func g b => rw [agree, agree, ih (over_func.1 ha) (over_func.1 hb)]
    | _ => rfl

end Unambiguous

/-- **Equality ignores the order** of terms and factors on both sides, if constants of the left side
that are close to one constant of the right side are close to the same ones. -/
theorem agree_ignores_order {a a' b b' : Formula Float}
    (clear : Rectangular closeTo a.constants b.constants) (ha : Reordered a a')
    (hb : Reordered b b') : agree a b = agree a' b' := by
  have overA : a.Over (· ∈ a.constants) := fun _ hc => hc
  have overB : b.Over (· ∈ b.constants) := fun _ hc => hc
  have turned : Rectangular closeTo b.constants a.constants := by
    simpa only [closeTo_comm] using clear.flip
  calc agree a b = agree a' b := agree_eq_of_reordered clear ha overA overB
    _ = agree b a' := agree_comm_of closeTo_comm a' b
    _ = agree b' a' := agree_eq_of_reordered turned hb overB (ha.over_of_over overA)
    _ = agree a' b' := agree_comm_of closeTo_comm b' a'

/-- Two constants that are close to each other do no harm. -/
theorem agree_ignores_order_close :
    let a : Formula Float := .sum [(.direct, .const 1.0), (.inverse, .const 1.00000000005),
      (.direct, .product [(.direct, .var), (.inverse, .const 3.0)])]
    let a' : Formula Float := .sum [(.inverse, .const 1.00000000005), (.direct, .const 1.0),
      (.direct, .product [(.inverse, .const 3.0), (.direct, .var)])]
    Rectangular closeTo a.constants a.constants ∧ Reordered a a' ∧ agree a a = agree a' a := by
  intro a a'
  have clear : Rectangular closeTo a.constants a.constants := by
    unfold Rectangular
    decide
  have inner : Reordered (.product [(.direct, .var), (.inverse, .const 3.0)])
      (.product [(.inverse, .const 3.0), (.direct, (.var : Formula Float))]) :=
    .factors (.swap _ _ _)
  have order : Reordered a a' :=
    .trans (.term [(.direct, .const 1.0), (.inverse, .const 1.00000000005)] [] inner)
      (.terms (.swap _ _ _))
  exact ⟨clear, order, agree_ignores_order clear order (.refl a)⟩

/-- **Equality depends on the order** where one constant is close to two that are not close to each
other: `0` claims the partner that `1.8e-10` needs. -/
theorem agree_depends_on_order :
    ∃ a a' b : Formula Float, Reordered a a' ∧ agree a b = false ∧ agree a' b = true := by
  refine ⟨.sum [(.direct, .const 0.0), (.direct, .const 1.8e-10)],
    .sum [(.direct, .const 1.8e-10), (.direct, .const 0.0)],
    .sum [(.direct, .const 0.9e-10), (.direct, .const (-0.9e-10))], .terms (.swap _ _ _), ?_, ?_⟩
  · decide
  · decide

end Formula

end CurvePuzzle
