import Mathlib.Data.List.Forall2
import Mathlib.Data.List.Perm.Basic
import Mathlib.Logic.Relation
import CurvePuzzle.Formula.Equality

/-!
# Claiming partners

Two lists are compared by letting every element on the left claim the first partner that is still
unclaimed on the right.

* `claimAll_comm`: letting the elements on the right claim gives the same answer, whatever the test.
* `Matched`: the elements of two lists are partners one to one, in some order.
  `matched_of_claimAll`: claiming only succeeds then.
* `claimAll_of_matched`: and always does, if elements with one partner in common have all partners
  in common.
* `claimAll_iff_countP`: for an equivalence, claiming succeeds when every class has equally many
  members on both sides.
-/

set_option autoImplicit false

namespace CurvePuzzle

variable {β γ : Type}

/-- Does every element on the left claim a partner, with none left over on the right? -/
def claimAll (r : β → γ → Bool) : List β → List γ → Bool
  | [], cs => cs.isEmpty
  | b :: bs, cs =>
    match claim? (r b) cs with
    | none => false
    | some rest => claimAll r bs rest

/-! ## Claiming one partner -/

theorem claim?_congr {f g : γ → Bool} {cs : List γ} (h : ∀ c ∈ cs, f c = g c) :
    claim? f cs = claim? g cs := by
  induction cs with
  | nil => rfl
  | cons c cs ih =>
    obtain ⟨first, others⟩ := List.forall_mem_cons.1 h
    rw [claim?, claim?, first, ih others]

theorem claim?_eq_some {f : γ → Bool} {cs rest : List γ} (h : claim? f cs = some rest) :
    ∃ c, f c = true ∧ (c :: rest).Perm cs := by
  induction cs generalizing rest with
  | nil => cases h
  | cons c cs ih =>
    rw [claim?] at h
    split at h
    · rename_i claimed
      obtain rfl := Option.some.inj h
      exact ⟨c, claimed, .refl _⟩
    · obtain ⟨others, found, rfl⟩ := Option.map_eq_some_iff.1 h
      obtain ⟨d, claimed, perm⟩ := ih found
      exact ⟨d, claimed, (List.Perm.swap c d others).trans (perm.cons c)⟩

theorem claim?_eq_none {f : γ → Bool} {cs : List γ} :
    claim? f cs = none ↔ ∀ c ∈ cs, f c = false := by
  induction cs with
  | nil => simp [claim?]
  | cons c cs ih =>
    rw [claim?, List.forall_mem_cons]
    cases f c with
    | true => simp
    | false => simpa using ih

/-! ## The other direction -/

theorem claimAll_congr {r s : β → γ → Bool} {bs : List β} {cs : List γ}
    (h : ∀ b ∈ bs, ∀ c ∈ cs, r b c = s b c) : claimAll r bs cs = claimAll s bs cs := by
  induction bs generalizing cs with
  | nil => rfl
  | cons b bs ih =>
    obtain ⟨first, others⟩ := List.forall_mem_cons.1 h
    rw [claimAll, claimAll, claim?_congr first]
    split
    · rfl
    · rename_i rest found
      obtain ⟨c, -, perm⟩ := claim?_eq_some found
      exact ih fun b hb d hd => others b hb d (perm.subset (List.mem_cons_of_mem _ hd))

/-- An element can be exchanged for one with the same partners. -/
theorem claimAll_exchange {r : β → γ → Bool} {b b' : β} {cs : List γ}
    (same : ∀ c ∈ cs, r b c = r b' c) (before after : List β) :
    claimAll r (before ++ b :: after) cs = claimAll r (before ++ b' :: after) cs := by
  induction before generalizing cs with
  | nil =>
    show claimAll r (b :: after) cs = claimAll r (b' :: after) cs
    rw [claimAll, claimAll, claim?_congr same]
  | cons d before ih =>
    show claimAll r (d :: (before ++ b :: after)) cs = claimAll r (d :: (before ++ b' :: after)) cs
    rw [claimAll, claimAll]
    split
    · rfl
    · rename_i rest found
      obtain ⟨c, -, perm⟩ := claim?_eq_some found
      exact ih fun e he => same e (perm.subset (List.mem_cons_of_mem _ he))

/-- The first element on the right is claimed by its first partner on the left. -/
theorem claimAll_cons_right (r : β → γ → Bool) (bs : List β) (c : γ) (cs : List γ) :
    claimAll r bs (c :: cs) =
      match claim? (fun b => r b c) bs with
      | none => false
      | some rest => claimAll r rest cs := by
  induction bs generalizing cs with
  | nil => rfl
  | cons b bs ih =>
    rw [claimAll, claim?, claim?]
    cases first : r b c with
    | true => rfl
    | false =>
      -- `b` claims behind `c`, and `c` is claimed behind `b`, so the two steps commute
      simp only [Bool.false_eq_true, if_false]
      cases left : claim? (r b) cs with
      | none =>
        cases right : claim? (fun b => r b c) bs with
        | none => rfl
        | some others => simp [claimAll, left]
      | some rest =>
        simp only [Option.map_some, ih]
        cases right : claim? (fun b => r b c) bs with
        | none => rfl
        | some others => simp [claimAll, left]

/-- **Claiming from the right** gives the same answer as claiming from the left. -/
theorem claimAll_comm (r : β → γ → Bool) (bs : List β) (cs : List γ) :
    claimAll r bs cs = claimAll (fun c b => r b c) cs bs := by
  induction cs generalizing bs with
  | nil => cases bs <;> rfl
  | cons c cs ih =>
    rw [claimAll_cons_right, claimAll]
    split
    · rfl
    · exact ih _

/-! ## Matchings -/

/-- The elements of the two lists are partners one to one, in some order. -/
def Matched (r : β → γ → Bool) (bs : List β) (cs : List γ) : Prop :=
  ∃ ds, List.Forall₂ (fun b d => r b d = true) bs ds ∧ ds.Perm cs

/-- Elements on the left with one partner in common have all their partners in common. -/
def Rectangular (r : β → γ → Bool) (bs : List β) (cs : List γ) : Prop :=
  ∀ b ∈ bs, ∀ b' ∈ bs, ∀ c ∈ cs, ∀ c' ∈ cs,
    r b c = true → r b' c = true → r b' c' = true → r b c' = true

variable {r : β → γ → Bool} {bs bs' : List β} {cs cs' : List γ}

theorem Rectangular.mono (h : Rectangular r bs cs) (left : bs' ⊆ bs) (right : cs' ⊆ cs) :
    Rectangular r bs' cs' :=
  fun b hb b' hb' c hc c' hc' =>
    h b (left hb) b' (left hb') c (right hc) c' (right hc')

theorem Matched.perm_left (h : Matched r bs cs) (perm : bs.Perm bs') : Matched r bs' cs := by
  obtain ⟨ds, partners, order⟩ := h
  obtain ⟨ds', partners', order'⟩ := List.perm_comp_forall₂ perm.symm partners
  exact ⟨ds', partners', order'.trans order⟩

theorem forall₂_zigzag {R S T : β → γ → Prop} {ds es : List γ} (down : List.Forall₂ R bs ds)
    (up : List.Forall₂ S bs' ds) (again : List.Forall₂ S bs' es)
    (h : ∀ b ∈ bs, ∀ b' ∈ bs', ∀ d ∈ ds, ∀ e ∈ es, R b d → S b' d → S b' e → T b e) :
    List.Forall₂ T bs es := by
  induction down generalizing bs' es with
  | nil =>
    cases up
    cases again
    exact .nil
  | cons first others ih =>
    obtain ⟨b', bs', back, backs, rfl⟩ := List.forall₂_cons_right_iff.1 up
    obtain ⟨e, es, forth, forths, rfl⟩ := List.forall₂_cons_left_iff.1 again
    refine .cons (h _ List.mem_cons_self _ List.mem_cons_self _ List.mem_cons_self _
      List.mem_cons_self first back forth) (ih backs forths ?_)
    intro b hb b' hb' d hd e he
    exact h b (List.mem_cons_of_mem _ hb) b' (List.mem_cons_of_mem _ hb') d
      (List.mem_cons_of_mem _ hd) e (List.mem_cons_of_mem _ he)

/-- Three matchings in a row make one. -/
theorem Matched.zigzag (down : Matched r bs cs) (up : Matched r bs' cs) (again : Matched r bs' cs')
    (h : ∀ b ∈ bs, ∀ b' ∈ bs', ∀ c ∈ cs, ∀ c' ∈ cs',
      r b c = true → r b' c = true → r b' c' = true → r b c' = true) : Matched r bs cs' := by
  obtain ⟨ds, partners, order⟩ := down
  obtain ⟨ds', partners', order'⟩ := up
  obtain ⟨bs'', aligned, perm⟩ := List.perm_comp_forall₂ (order.trans order'.symm) partners'.flip
  obtain ⟨es, others, last⟩ := again.perm_left perm.symm
  refine ⟨es, forall₂_zigzag partners aligned.flip others ?_, last⟩
  intro b hb b' hb' d hd e he
  exact h b hb b' (perm.subset hb') d (order.subset hd) e (last.subset he)

theorem Rectangular.flip (h : Rectangular r bs cs) : Rectangular (fun c b => r b c) cs bs :=
  fun c hc c' hc' b hb b' hb' first common last => h b' hb' b hb c' hc' c hc last common first

/-- What is claimed is a matching. -/
theorem matched_of_claimAll (h : claimAll r bs cs = true) : Matched r bs cs := by
  induction bs generalizing cs with
  | nil => exact ⟨[], .nil, by rw [List.isEmpty_iff.1 h]⟩
  | cons b bs ih =>
    rw [claimAll] at h
    split at h
    · cases h
    · rename_i rest found
      obtain ⟨c, claimed, perm⟩ := claim?_eq_some found
      obtain ⟨ds, partners, order⟩ := ih h
      exact ⟨c :: ds, .cons claimed partners, (order.cons c).trans perm⟩

/-- The partner of some element can be exchanged for another partner of that element. -/
theorem exists_exchange {R : β → γ → Prop} {ds : List γ} (h : List.Forall₂ R bs ds) {d : γ}
    (mem : d ∈ ds) :
    ∃ b ∈ bs, R b d ∧ ∀ c, R b c → ∃ es, List.Forall₂ R bs es ∧ (d :: es).Perm (c :: ds) := by
  induction h with
  | nil => cases mem
  | @cons b d' bs ds first others ih =>
    rcases List.mem_cons.1 mem with rfl | mem
    · exact ⟨b, List.mem_cons_self, first, fun c hc => ⟨c :: ds, .cons hc others, .swap c d ds⟩⟩
    · obtain ⟨b', mem', partner, exchange⟩ := ih mem
      refine ⟨b', List.mem_cons_of_mem _ mem', partner, fun c hc => ?_⟩
      obtain ⟨es, partners, perm⟩ := exchange c hc
      refine ⟨d' :: es, .cons first partners, ?_⟩
      calc (d :: d' :: es).Perm (d' :: d :: es) := .swap d' d es
        _ |>.Perm (d' :: c :: ds) := perm.cons d'
        _ |>.Perm (c :: d' :: ds) := .swap c d' ds

/-- **Claiming misses no matching** if elements with one partner in common have all partners in
common. -/
theorem claimAll_of_matched (rect : Rectangular r bs cs) (h : Matched r bs cs) :
    claimAll r bs cs = true := by
  induction bs generalizing cs with
  | nil =>
    obtain ⟨ds, partners, order⟩ := h
    cases partners
    rw [List.nil_perm.1 order]
    rfl
  | cons b bs ih =>
    obtain ⟨ds, partners, order⟩ := h
    obtain ⟨c, ds, first, others, rfl⟩ := List.forall₂_cons_left_iff.1 partners
    have memC : c ∈ cs := order.subset List.mem_cons_self
    rw [claimAll]
    cases found : claim? (r b) cs with
    | none => exact absurd first (by rw [claim?_eq_none.1 found c memC]; exact Bool.false_ne_true)
    | some rest =>
      obtain ⟨d, claimed, left⟩ := claim?_eq_some found
      have memD : d ∈ cs := left.subset List.mem_cons_self
      have same : (c :: ds).Perm (d :: rest) := order.trans left.symm
      refine ih (rect.mono (List.subset_cons_self _ _) fun e he =>
        left.subset (List.mem_cons_of_mem _ he)) ?_
      rcases List.mem_cons.1 (same.symm.subset List.mem_cons_self) with rfl | mem
      · exact ⟨ds, others, same.cons_inv⟩
      · -- the element that was to have `d` takes the partner that `b` leaves it
        obtain ⟨b', mem', partner, exchange⟩ := exists_exchange others mem
        obtain ⟨es, partners, perm⟩ := exchange c
          (rect b' (List.mem_cons_of_mem _ mem') b List.mem_cons_self d memD c memC partner claimed
            first)
        exact ⟨es, partners, (perm.trans same).cons_inv⟩

/-- With unambiguous partners, claiming decides whether there is a matching. -/
theorem claimAll_iff_matched (rect : Rectangular r bs cs) :
    claimAll r bs cs = true ↔ Matched r bs cs :=
  ⟨matched_of_claimAll, claimAll_of_matched rect⟩

/-! ## Counting -/

/-- **Claiming counts.** For an equivalence, every element claims a partner and none is left over
when both lists have equally many members of every class. -/
theorem claimAll_iff_countP {P : β → Prop} {e : β → β → Bool} (refl : ∀ b, P b → e b b = true)
    (symm : ∀ b c, e b c = e c b)
    (trans : ∀ b c d, P b → P c → P d → e b c = true → e c d = true → e b d = true)
    {bs cs : List β} (left : ∀ b ∈ bs, P b) (right : ∀ c ∈ cs, P c) :
    claimAll e bs cs = true ↔ ∀ m, P m → bs.countP (e m) = cs.countP (e m) := by
  induction bs generalizing cs with
  | nil =>
    rw [claimAll, List.isEmpty_iff]
    constructor
    · rintro rfl _ _
      rfl
    · intro count
      refine List.eq_nil_iff_forall_not_mem.2 fun c hc => ?_
      have none := List.countP_eq_zero.1 (count c (right c hc)).symm c hc
      exact none (refl c (right c hc))
  | cons b bs ih =>
    obtain ⟨first, others⟩ := List.forall_mem_cons.1 left
    rw [claimAll]
    cases found : claim? (e b) cs with
    | none =>
      have none : cs.countP (e b) = 0 :=
        List.countP_eq_zero.2 fun c hc => by simp [claim?_eq_none.1 found c hc]
      refine ⟨fun h => (by cases h), fun count => ?_⟩
      have some := count b first
      rw [none, List.countP_cons_of_pos (refl b first)] at some
      cases some
    | some rest =>
      obtain ⟨d, claimed, perm⟩ := claim?_eq_some found
      have memD := right d (perm.subset List.mem_cons_self)
      rw [ih others fun c hc => right c (perm.subset (List.mem_cons_of_mem _ hc))]
      refine forall₂_congr fun m hm => ?_
      have same : e m b = e m d := by
        rw [Bool.eq_iff_iff]
        exact ⟨fun h => trans m b d hm first memD h claimed,
          fun h => trans m d b hm memD first h (by rw [symm]; exact claimed)⟩
      rw [← perm.countP_eq, List.countP_cons, List.countP_cons, same]
      exact (Nat.add_right_cancel_iff).symm

end CurvePuzzle
