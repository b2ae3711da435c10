import Mathlib.Data.List.Forall2
import CurvePuzzle.Formula.Equality
import CurvePuzzle.Proofs.FormulaParts

/-!
# Reordered and retouched formulas

* `Reordered`: the members of sums and products are put into another order, at any depth and any
  number of times. `Reordered.over_of_over`: this leaves the constants as they are.
* `Near`: every constant is replaced by one that is close to it.
* `Reordered.sum`, `Reordered.product`: members that are reordered one by one.
-/

set_option autoImplicit false

namespace CurvePuzzle

namespace Formula

variable {α : Type}

/-- The second formula is the first with the members of sums and products in another order. -/
inductive Reordered : Formula α → Formula α → Prop where
  | refl (a : Formula α) : Reordered a a
  | trans {a b c : Formula α} (first : Reordered a b) (second : Reordered b c) : Reordered a c
  | terms {ts us : List (Polarity × Formula α)} (perm : ts.Perm us) : Reordered (sum ts) (sum us)
  | factors {fs gs : List (Polarity × Formula α)} (perm : fs.Perm gs) :
      Reordered (product fs) (product gs)
  | term {p : Polarity} {t u : Formula α} (before after : List (Polarity × Formula α))
      (part : Reordered t u) :
      Reordered (sum (before ++ (p, t) :: after)) (sum (before ++ (p, u) :: after))
  | factor {p : Polarity} {f g : Formula α} (before after : List (Polarity × Formula α))
      (part : Reordered f g) :
      Reordered (product (before ++ (p, f) :: after)) (product (before ++ (p, g) :: after))
  | base {a b e : Formula α} (part : Reordered a b) : Reordered (pow a e) (pow b e)
  | exponent {a b e : Formula α} (part : Reordered a b) : Reordered (pow e a) (pow e b)
  | argument {f : FunctionName} {a b : Formula α} (part : Reordered a b) :
      Reordered (func f a) (func f b)

namespace Reordered

theorem forall_mem_replace {P : Polarity × Formula α → Prop} {p : Polarity} {t u : Formula α}
    {before after : List (Polarity × Formula α)} (h : P (p, t) → P (p, u))
    (all : ∀ m ∈ before ++ (p, t) :: after, P m) : ∀ m ∈ before ++ (p, u) :: after, P m := by
  rw [List.forall_mem_append, List.forall_mem_cons] at all ⊢
  exact ⟨all.1, h all.2.1, all.2.2⟩

/-- Reordering adds no constant. -/
theorem over_of_over {S : α → Prop} {a b : Formula α} (h : Reordered a b) :
    a.Over S → b.Over S := by
  induction h with
  | refl a => exact id
  | trans _ _ ih ih' => exact ih' ∘ ih
  | terms perm =>
    rw [over_sum, over_sum]
    exact fun all m hm => all m (perm.symm.subset hm)
  | factors perm =>
    rw [over_product, over_product]
    exact fun all m hm => all m (perm.symm.subset hm)
  | term before after _ ih =>
    rw [over_sum, over_sum]
    exact forall_mem_replace (P := fun m => m.2.Over S) ih
  | factor before after _ ih =>
    rw [over_product, over_product]
    exact forall_mem_replace (P := fun m => m.2.Over S) ih
  | base _ ih =>
    rw [over_pow, over_pow]
    exact And.imp_left ih
  | exponent _ ih =>
    rw [over_pow, over_pow]
    exact And.imp_right ih
  | argument _ ih =>
    rw [over_func, over_func]
    exact ih

/-- The members of a node that are reordered one by one, when one of them can be. -/
theorem members {node : List (Polarity × Formula α) → Formula α}
    (one : ∀ {p : Polarity} {t u : Formula α} (before after : List (Polarity × Formula α)),
      Reordered t u → Reordered (node (before ++ (p, t) :: after)) (node (before ++ (p, u) :: after)))
    {ts us : List (Polarity × Formula α)}
    (h : List.Forall₂ (fun m n => m.1 = n.1 ∧ Reordered m.2 n.2) ts us) :
    Reordered (node ts) (node us) := by
  suffices behind : ∀ before, Reordered (node (before ++ ts)) (node (before ++ us)) from behind []
  induction h with
  | nil => exact fun before => .refl _
  | @cons m n ts us first others ih =>
    obtain ⟨p, t⟩ := m
    obtain ⟨_, u⟩ := n
    obtain ⟨rfl, part⟩ := first
    intro before
    have rest := ih (before ++ [(p, u)])
    rw [List.append_assoc, List.append_assoc] at rest
    exact (one before ts part).trans rest

theorem sum {ts us : List (Polarity × Formula α)}
    (h : List.Forall₂ (fun m n => m.1 = n.1 ∧ Reordered m.2 n.2) ts us) :
    Reordered (.sum ts) (.sum us) := members .term h

theorem product {fs gs : List (Polarity × Formula α)}
    (h : List.Forall₂ (fun m n => m.1 = n.1 ∧ Reordered m.2 n.2) fs gs) :
    Reordered (.product fs) (.product gs) := members .factor h

end Reordered

section Tolerance

variable [Scalar α] [DecidableLT α]

mutual

/-- The second formula is the first with every constant replaced by one that is close to it. -/
inductive Near : Formula α → Formula α → Prop where
  | const {u v : α} (close : closeTo u v = true) : Near (const u) (const v)
  | var : Near var var
  | sum {ts us : List (Polarity × Formula α)} (terms : NearAll ts us) : Near (sum ts) (sum us)
  | product {fs gs : List (Polarity × Formula α)} (factors : NearAll fs gs) :
      Near (product fs) (product gs)
  | pow {a b c d : Formula α} (base : Near a c) (exponent : Near b d) : Near (pow a b) (pow c d)
  | func {f : FunctionName} {a b : Formula α} (argument : Near a b) : Near (func f a) (func f b)
  | invalid : Near invalid invalid

/-- The same for the members of a sum or product, which keep their polarity. -/
inductive NearAll : List (Polarity × Formula α) → List (Polarity × Formula α) → Prop where
  | nil : NearAll [] []
  | cons {p : Polarity} {t u : Formula α} {ts us : List (Polarity × Formula α)} (first : Near t u)
      (others : NearAll ts us) : NearAll ((p, t) :: ts) ((p, u) :: us)

end

theorem nearAll_iff {ts us : List (Polarity × Formula α)} :
    NearAll ts us ↔ List.Forall₂ (fun m n => m.1 = n.1 ∧ Near m.2 n.2) ts us := by
  constructor
  · intro h
    induction ts generalizing us with
    | nil =>
      cases h
      exact .nil
    | cons m ts ih =>
      cases h with
      | cons first others => exact .cons ⟨rfl, first⟩ (ih others)
  · intro h
    induction h with
    | nil => exact .nil
    | @cons m n ts us first _ ih =>
      obtain ⟨p, t⟩ := m
      obtain ⟨_, u⟩ := n
      obtain ⟨rfl, part⟩ := first
      exact .cons part ih

end Tolerance

end Formula

end CurvePuzzle
