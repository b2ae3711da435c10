import CurvePuzzle.Proofs.EqualityOrder
import CurvePuzzle.Proofs.ReadTrees

/-!
# Which formulas equal themselves

Near-equal constants make it conceivable that members of a sum claim each other's partners. In a
comparison of a formula with itself that does no harm: when its turn comes, every member is the first
one that is left, so it claims itself. Only a constant that is close to nothing is in the way.

* `claimAll_self`: elements that are their own partners claim themselves.
* `hasFiniteConstants_of_agree`: whatever is equal to some formula has finite constants only.
* `agree_self_iff_finite`: a formula equals itself when its constants are finite, and equals no formula
  when one of them is not.
-/

set_option autoImplicit false

namespace CurvePuzzle

/-! ## Claiming oneself -/

section Claiming

variable {β γ : Type}

/-- **Elements that are their own partners claim themselves**, whatever other partners they have: the
elements before each of them are claimed already. -/
theorem claimAll_self {r : β → β → Bool} {bs : List β} (h : ∀ b ∈ bs, r b b = true) :
    claimAll r bs bs = true := by
  induction bs with
  | nil => rfl
  | cons b bs ih =>
    obtain ⟨first, others⟩ := List.forall_mem_cons.1 h
    have claimed : claim? (r b) (b :: bs) = some bs := by simp [claim?, first]
    rw [claimAll, claimed]
    exact ih others

/-- Where claiming succeeds, every element on the left has a partner. -/
theorem exists_partner_of_claimAll {r : β → γ → Bool} {bs : List β} {cs : List γ}
    (h : claimAll r bs cs = true) : ∀ b ∈ bs, ∃ c, r b c = true := by
  obtain ⟨ds, partners, -⟩ := matched_of_claimAll h
  clear h
  induction partners with
  | nil => intro b hb; cases hb
  | cons first _ ih => exact List.forall_mem_cons.2 ⟨⟨_, first⟩, ih⟩

end Claiming

namespace Formula

/-- **Finite constants suffice** for a formula to equal itself. -/
theorem agree_self_of_hasFiniteConstants {e : Formula Float} (h : e.HasFiniteConstants) :
    agree e e = true := by
  have members {ms : List (Polarity × Formula Float)}
      (ih : ∀ m ∈ ms, m.2.HasFiniteConstants → agree m.2 m.2 = true)
      (finite : ∀ m ∈ ms, m.2.HasFiniteConstants) : claimAll agreeMember ms ms = true := by
    refine claimAll_self ?_
    intro m hm
    exact agreeMember_iff.2 ⟨rfl, ih m hm (finite m hm)⟩
  induction e using inductionOn with
  | const v => exact closeTo_self.2 (hasFiniteConstants_const.1 h)
  | var => rfl
  | sum ts ih =>
    rw [agree_sum]
    exact members ih (hasFiniteConstants_sum.1 h)
  | product fs ih =>
    rw [agree_product]
    exact members ih (hasFiniteConstants_product.1 h)
  | pow b e ihb ihe =>
    obtain ⟨base, exponent⟩ := hasFiniteConstants_pow.1 h
    simp [agree, ihb base, ihe exponent]
  | func f a ih =>
    rw [agree_func]
    exact ih (hasFiniteConstants_func.1 h)
  | invalid => rfl

/-- **Finite constants are necessary** for a formula to equal any formula, itself or another one. -/
theorem hasFiniteConstants_of_agree {a b : Formula Float} (h : agree a b = true) :
    a.HasFiniteConstants := by
  have members {ms ns : List (Polarity × Formula Float)}
      (ih : ∀ m ∈ ms, ∀ {b : Formula Float}, agree m.2 b = true → m.2.HasFiniteConstants)
      (claimed : claimAll agreeMember ms ns = true) : ∀ m ∈ ms, m.2.HasFiniteConstants := by
    intro m hm
    obtain ⟨n, partner⟩ := exists_partner_of_claimAll claimed m hm
    exact ih m hm (agreeMember_iff.1 partner).2
  induction a using inductionOn generalizing b with
  | const u =>
    cases agree_cases h with
    | const close => exact hasFiniteConstants_const.2 (closeTo_iff.1 close).1
  | var => exact List.forall_mem_nil _
  | sum ts ih =>
    cases agree_cases h with
    | sum claimed => exact hasFiniteConstants_sum.2 (members ih claimed)
  | product fs ih =>
    cases agree_cases h with
    | product claimed => exact hasFiniteConstants_product.2 (members ih claimed)
  | pow b' e ihb ihe =>
    cases agree_cases h with
    | pow base exponent => exact hasFiniteConstants_pow.2 ⟨ihb base, ihe exponent⟩
  | func f a ih =>
    cases agree_cases h with
    | func argument => exact hasFiniteConstants_func.2 (ih argument)
  | invalid => exact List.forall_mem_nil _

/-- **A formula equals itself exactly when its constants are finite.** One with a constant that is
infinite or undefined equals no formula at all, on either side of the comparison. -/
theorem agree_self_iff_finite (e : Formula Float) :
    (agree e e = true ↔ e.HasFiniteConstants) ∧
      ∀ c ∈ e.constants, c.isFinite = false → ∀ b, agree e b = false ∧ agree b e = false := by
  refine ⟨⟨hasFiniteConstants_of_agree, agree_self_of_hasFiniteConstants⟩, ?_⟩
  intro c hc infinite b
  have unequal : agree e b = false := by
    by_contra equal
    have finite := hasFiniteConstants_of_agree (Bool.eq_true_of_not_eq_false equal) c hc
    rw [infinite] at finite
    cases finite
  exact ⟨unequal, agree_comm_of closeTo_comm e b ▸ unequal⟩

/-- Constants that are close to each other leave a sum equal to itself; an infinite one, deep inside,
leaves it equal to nothing. -/
theorem infinite_part_equals_nothing :
    let close : Formula Float :=
      .sum [(.direct, .const 1.0), (.direct, .const 1.00000000005), (.inverse, .const 1.0)]
    let infinite : Formula Float :=
      .sum [(.direct, .var), (.inverse, .product [(.direct, .func .sin (.const (1.0 / 0.0)))])]
    close.HasFiniteConstants ∧ agree close close = true ∧
      (1.0 / 0.0 : Float) ∈ infinite.constants ∧ (1.0 / 0.0 : Float).isFinite = false ∧
        ∀ b, agree infinite b = false ∧ agree b infinite = false := by
  intro close infinite
  have finite : close.HasFiniteConstants := by
    unfold HasFiniteConstants
    decide
  have member : (1.0 / 0.0 : Float) ∈ infinite.constants := List.mem_singleton.2 rfl
  have undefined : (1.0 / 0.0 : Float).isFinite = false := by decide +kernel
  exact ⟨finite, (agree_self_iff_finite close).1.2 finite, member, undefined,
    (agree_self_iff_finite infinite).2 _ member undefined⟩

end Formula

end CurvePuzzle
