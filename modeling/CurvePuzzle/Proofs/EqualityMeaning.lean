import CurvePuzzle.Proofs.EqualityOrder

/-!
# The meaning of equality

* `exists_near_of_agree`: equal formulas are the same up to the order of members and close
  constants.
* `agree_of_near`: the converse, if the constants are unambiguous.
* `Clustered`: finite constants on which closeness is an equivalence.
* `agree_iff_reordered_near`: on such constants both hold, so equality is an equivalence there, and
  counts the members of sums and products.
-/

set_option autoImplicit false

namespace CurvePuzzle

namespace Formula

variable {α : Type} [Scalar α] [DecidableLT α] {us vs : List α}

/-! ## Equal formulas and close constants -/

theorem exists_between {β γ δ : Type} {R : β → δ → Prop} {N : δ → γ → Prop} {bs : List β}
    {cs : List γ} (h : List.Forall₂ (fun b c => ∃ d, R b d ∧ N d c) bs cs) :
    ∃ ds, List.Forall₂ R bs ds ∧ List.Forall₂ N ds cs := by
  induction h with
  | nil => exact ⟨[], .nil, .nil⟩
  | cons first _ ih =>
    obtain ⟨d, left, right⟩ := first
    obtain ⟨ds, lefts, rights⟩ := ih
    exact ⟨d :: ds, .cons left lefts, .cons right rights⟩

/-- Members that claim each other: reordered one by one, then put into the order of their partners,
they have close constants. -/
theorem exists_nearAll_of_claimAll {ts ws : List (Polarity × Formula α)}
    (ih : ∀ m ∈ ts, ∀ {b : Formula α}, agree m.2 b = true → ∃ c, Reordered m.2 c ∧ Near c b)
    (h : claimAll agreeMember ts ws = true) :
    ∃ ks ks', List.Forall₂ (fun m k => m.1 = k.1 ∧ Reordered m.2 k.2) ts ks ∧ ks.Perm ks' ∧
      NearAll ks' ws := by
  obtain ⟨ds, partners, order⟩ := matched_of_claimAll h
  have between : List.Forall₂ (fun m n => ∃ k : Polarity × Formula α,
      (m.1 = k.1 ∧ Reordered m.2 k.2) ∧ (k.1 = n.1 ∧ Near k.2 n.2)) ts ds := by
    clear order h
    induction partners with
    | nil => exact .nil
    | @cons m n ts ds first _ rest =>
      obtain ⟨here, there⟩ := List.forall_mem_cons.1 ih
      obtain ⟨sign, equal⟩ := agreeMember_iff.1 first
      obtain ⟨c, reordered, near⟩ := here equal
      exact .cons ⟨(m.1, c), ⟨rfl, reordered⟩, sign, near⟩ (rest there)
  obtain ⟨ks, reordered, near⟩ := exists_between between
  obtain ⟨ks', near', perm⟩ := List.perm_comp_forall₂ order.symm near.flip
  exact ⟨ks, ks', reordered, perm.symm, nearAll_iff.2 near'.flip⟩

/-- **Equal formulas** are the same up to order and close constants. -/
theorem exists_near_of_agree {a b : Formula α} (h : agree a b = true) :
    ∃ c, Reordered a c ∧ Near c b := by
  induction a using inductionOn generalizing b with
  | const u =>
    cases agree_cases h
    exact ⟨_, .refl _, .const h⟩
  | var =>
    cases agree_cases h
    exact ⟨_, .refl _, .var⟩
  | sum ts ih =>
    cases agree_cases h with | sum claimed =>
    obtain ⟨ks, ks', reordered, perm, near⟩ := exists_nearAll_of_claimAll ih claimed
    exact ⟨.sum ks', (Reordered.sum reordered).trans (.terms perm), .sum near⟩
  | product fs ih =>
    cases agree_cases h with | product claimed =>
    obtain ⟨ks, ks', reordered, perm, near⟩ := exists_nearAll_of_claimAll ih claimed
    exact ⟨.product ks', (Reordered.product reordered).trans (.factors perm), .product near⟩
  | pow b' e ihb ihe =>
    cases agree_cases h with | pow base exponent =>
    obtain ⟨c, reorderedB, nearB⟩ := ihb base
    obtain ⟨d, reorderedE, nearE⟩ := ihe exponent
    exact ⟨.pow c d, (Reordered.base reorderedB).trans (.exponent reorderedE), .pow nearB nearE⟩
  | func f a ih =>
    cases agree_cases h with | func argument =>
    obtain ⟨c, reordered, near⟩ := ih argument
    exact ⟨.func f c, .argument reordered, .func near⟩
  | invalid =>
    cases agree_cases h
    exact ⟨_, .refl _, .invalid⟩

/-- Formulas with close constants are equal, if the constants are unambiguous. -/
theorem agree_of_near (clear : Rectangular closeTo us vs) {a b : Formula α}
    (ha : a.Over (· ∈ us)) (hb : b.Over (· ∈ vs)) (h : Near a b) : agree a b = true := by
  have members {ts ws : List (Polarity × Formula α)}
      (ih : ∀ m ∈ ts, ∀ {b : Formula α}, m.2.Over (· ∈ us) → b.Over (· ∈ vs) → Near m.2 b →
        agree m.2 b = true)
      (hts : ∀ m ∈ ts, m.2.Over (· ∈ us)) (hws : ∀ m ∈ ws, m.2.Over (· ∈ vs))
      (h : NearAll ts ws) : claimAll agreeMember ts ws = true := by
    refine claimAll_of_matched (rectangular_agreeMember clear hts hws) ⟨ws, ?_, .refl ws⟩
    have near := nearAll_iff.1 h
    clear h
    induction near with
    | nil => exact .nil
    | cons first _ rest =>
      obtain ⟨ihFirst, ih⟩ := List.forall_mem_cons.1 ih
      obtain ⟨leftFirst, hts⟩ := List.forall_mem_cons.1 hts
      obtain ⟨rightFirst, hws⟩ := List.forall_mem_cons.1 hws
      exact .cons (agreeMember_iff.2 ⟨first.1, ihFirst leftFirst rightFirst first.2⟩)
        (rest ih hts hws)
  induction a using inductionOn generalizing b with
  | const u =>
    cases h with
    | const close => exact close
  | var =>
    cases h
    rfl
  | sum ts ih =>
    cases h with
    | sum terms =>
      rw [agree_sum]
      exact members ih (over_sum.1 ha) (over_sum.1 hb) terms
  | product fs ih =>
    cases h with
    | product factors =>
      rw [agree_product]
      exact members ih (over_product.1 ha) (over_product.1 hb) factors
  | pow b' e ihb ihe =>
    cases h with
    | pow base exponent =>
      rw [over_pow] at ha hb
      rw [agree, ihb ha.1 hb.1 base, ihe ha.2 hb.2 exponent]
      rfl
  | func f a ih =>
    cases h with
    | func argument =>
      rw [agree_func]
      exact ih (over_func.1 ha) (over_func.1 hb) argument
  | invalid =>
    cases h
    rfl

/-! ## Clustered constants -/

/-- The constants are finite, and constants close to a common one are close to each other. -/
structure Clustered (S : Float → Prop) : Prop where
  finite : ∀ u, S u → u.isFinite = true
  trans : ∀ u v w, S u → S v → S w → closeTo u v = true → closeTo v w = true → closeTo u w = true

namespace Clustered

variable {S : Float → Prop}

/-- Closeness is an equivalence on clustered constants. -/
theorem equivalence (h : Clustered S) :
    Equivalence fun u v : {u // S u} => closeTo u.1 v.1 = true where
  refl u := closeTo_self.2 (h.finite u.1 u.2)
  symm close := by rwa [closeTo_comm]
  trans := h.trans _ _ _ (Subtype.property _) (Subtype.property _) (Subtype.property _)

theorem rectangular (h : Clustered S) {us vs : List Float} (hu : ∀ u ∈ us, S u)
    (hv : ∀ v ∈ vs, S v) : Rectangular closeTo us vs := by
  intro u mu u' mu' v mv v' mv' down up again
  rw [closeTo_comm] at up
  exact h.trans u u' v' (hu u mu) (hu u' mu') (hv v' mv')
    (h.trans u v u' (hu u mu) (hv v mv) (hu u' mu') down up) again

theorem agree_iff (h : Clustered S) {a b : Formula Float} (ha : a.Over S) (hb : b.Over S) :
    agree a b = true ↔ ∃ c, Reordered a c ∧ Near c b := by
  refine ⟨exists_near_of_agree, ?_⟩
  rintro ⟨c, reordered, near⟩
  have clear : Rectangular closeTo a.constants b.constants := h.rectangular ha hb
  rw [agree_eq_of_reordered clear reordered (fun _ hc => hc) (fun _ hc => hc)]
  exact agree_of_near clear (reordered.over_of_over fun _ hc => hc) (fun _ hc => hc) near

theorem near_self (h : Clustered S) {a : Formula Float} (ha : a.Over S) : Near a a := by
  have members {ts : List (Polarity × Formula Float)} (ih : ∀ m ∈ ts, m.2.Over S → Near m.2 m.2)
      (hts : ∀ m ∈ ts, m.2.Over S) : NearAll ts ts :=
    nearAll_iff.2 (List.forall₂_same.2 fun m hm => ⟨rfl, ih m hm (hts m hm)⟩)
  induction a using inductionOn with
  | const u => exact .const (closeTo_self.2 (h.finite u (over_const.1 ha)))
  | var => exact .var
  | sum ts ih => exact .sum (members ih (over_sum.1 ha))
  | product fs ih => exact .product (members ih (over_product.1 ha))
  | pow b e ihb ihe => exact .pow (ihb (over_pow.1 ha).1) (ihe (over_pow.1 ha).2)
  | func f a ih => exact .func (ih (over_func.1 ha))
  | invalid => exact .invalid

theorem agree_self (h : Clustered S) {a : Formula Float} (ha : a.Over S) : agree a a = true :=
  (h.agree_iff ha ha).2 ⟨a, .refl a, h.near_self ha⟩

theorem agree_trans (h : Clustered S) {a b c : Formula Float} (ha : a.Over S) (hb : b.Over S)
    (hc : c.Over S) (first : agree a b = true) (second : agree b c = true) : agree a c = true := by
  let us := a.constants ++ b.constants ++ c.constants
  have all : ∀ u ∈ us, S u :=
    List.forall_mem_append.2 ⟨List.forall_mem_append.2 ⟨ha, hb⟩, hc⟩
  have overA : a.Over (· ∈ us) :=
    fun u hu => List.mem_append_left _ (List.mem_append_left _ hu)
  have overB : b.Over (· ∈ us) :=
    fun u hu => List.mem_append_left _ (List.mem_append_right _ hu)
  have overC : c.Over (· ∈ us) := fun u hu => List.mem_append_right _ hu
  exact agree_of_zigzag (h.rectangular all all) overA overB overB overC first (h.agree_self hb)
    second

/-- Members claim each other when there are equally many of every kind. -/
theorem claimAll_iff (h : Clustered S) {ts us : List (Polarity × Formula Float)}
    (hts : ∀ m ∈ ts, m.2.Over S) (hus : ∀ m ∈ us, m.2.Over S) :
    claimAll agreeMember ts us = true ↔
      ∀ m : Polarity × Formula Float, m.2.Over S →
        ts.countP (agreeMember m) = us.countP (agreeMember m) := by
  refine claimAll_iff_countP (P := fun m : Polarity × Formula Float => m.2.Over S) ?_ ?_ ?_ hts hus
  · exact fun m hm => agreeMember_iff.2 ⟨rfl, h.agree_self hm⟩
  · intro m n
    rw [agreeMember, agreeMember, BEq.comm, agree_comm_of closeTo_comm]
  · intro m n k hm hn hk first second
    obtain ⟨sign, first⟩ := agreeMember_iff.1 first
    obtain ⟨sign', second⟩ := agreeMember_iff.1 second
    exact agreeMember_iff.2 ⟨sign.trans sign', h.agree_trans hm hn hk first second⟩

end Clustered

/-- Both lists have equally many members of every kind. -/
def SameCounts (S : Float → Prop) (ts us : List (Polarity × Formula Float)) : Prop :=
  ∀ m : Polarity × Formula Float, m.2.Over S →
    ts.countP (agreeMember m) = us.countP (agreeMember m)

/-- **What equality means** on finite constants on which closeness is an equivalence: one formula is
the other with members of sums and products in another order, and then with close constants in place
of its own. So equality is an equivalence there, and sums and products are equal when they have
equally many members of every kind. -/
theorem agree_iff_reordered_near {S : Float → Prop} (h : Clustered S) :
    (∀ a b : Formula Float, a.Over S → b.Over S →
        (agree a b = true ↔ ∃ c, Reordered a c ∧ Near c b)) ∧
      (Equivalence fun a b : {e : Formula Float // e.Over S} => agree a.1 b.1 = true) ∧
      ∀ ts us : List (Polarity × Formula Float),
        (∀ m ∈ ts, m.2.Over S) → (∀ m ∈ us, m.2.Over S) →
          (agree (sum ts) (sum us) = true ↔ SameCounts S ts us) ∧
            (agree (product ts) (product us) = true ↔ SameCounts S ts us) := by
  refine ⟨fun a b => h.agree_iff, ⟨?_, ?_, ?_⟩, fun ts us hts hus => ?_⟩
  · exact fun a => h.agree_self a.2
  · intro a b equal
    rwa [agree_comm_of closeTo_comm]
  · exact fun {a b c} => h.agree_trans a.2 b.2 c.2
  · rw [agree_sum, agree_product]
    exact ⟨h.claimAll_iff hts hus, h.claimAll_iff hts hus⟩

/-- `1` and `1.00000000005` are close to each other, and neither is close to `2`. -/
theorem agree_iff_reordered_near_pair :
    let S : Float → Prop := fun u => u ∈ [1.0, 1.00000000005, 2.0]
    let ts : List (Polarity × Formula Float) :=
      [(.direct, .const 1.0), (.direct, .const 2.0), (.direct, .const 1.00000000005)]
    let us : List (Polarity × Formula Float) :=
      [(.direct, .const 1.0), (.direct, .const 1.0), (.direct, .const 2.0)]
    Clustered S ∧ agree (sum ts) (sum us) = true ∧ SameCounts S ts us ∧
      ∃ c, Reordered (sum ts) c ∧ Near c (sum us) := by
  intro S ts us
  have clustered : Clustered S :=
    ⟨by show ∀ u ∈ _, _; decide, fun u v w hu hv hw => by
      have all : ∀ u ∈ [1.0, 1.00000000005, 2.0], ∀ v ∈ [1.0, 1.00000000005, 2.0],
          ∀ w ∈ [1.0, 1.00000000005, 2.0],
          closeTo u v = true → closeTo v w = true → closeTo u w = true := by decide
      exact all u hu v hv w hw⟩
  have overT : ∀ m ∈ ts, m.2.Over S := by
    simp only [ts, List.forall_mem_cons, over_const]
    simp [S]
  have overU : ∀ m ∈ us, m.2.Over S := by
    simp only [us, List.forall_mem_cons, over_const]
    simp [S]
  have equal : agree (sum ts) (sum us) = true := by decide
  obtain ⟨meaning, -, counts⟩ := agree_iff_reordered_near clustered
  exact ⟨clustered, equal, (counts ts us overT overU).1.1 equal,
    (meaning _ _ (over_sum.2 overT) (over_sum.2 overU)).1 equal⟩

end Formula

end CurvePuzzle
