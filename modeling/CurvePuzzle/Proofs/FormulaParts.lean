import CurvePuzzle.Formula.Evaluation

/-!
# The parts of a formula

* `Formula.inductionOn`: induction over a formula, the members of a sum or product all at once.
* `Formula.Part`: one formula stands somewhere in another. `eval?_eq_none_of_part`: a part without a
  value leaves the whole without one.
* `Formula.constants`: the constants of a formula; `Formula.Over`: all of them are in a set.
-/

set_option autoImplicit false

namespace CurvePuzzle

namespace Formula

variable {α : Type}

/-- **Induction over a formula**: the members of a sum or product are taken up all at once. -/
@[elab_as_elim]
theorem inductionOn {motive : Formula α → Prop} (e : Formula α)
    (const : ∀ v, motive (.const v)) (var : motive .var)
    (sum : ∀ ts, (∀ m ∈ ts, motive m.2) → motive (.sum ts))
    (product : ∀ fs, (∀ m ∈ fs, motive m.2) → motive (.product fs))
    (pow : ∀ b e, motive b → motive e → motive (.pow b e))
    (func : ∀ f a, motive a → motive (.func f a)) (invalid : motive .invalid) : motive e :=
  @Formula.rec α motive (fun ms => ∀ m ∈ ms, motive m.2) (fun m => motive m.2)
    const var sum product pow func invalid (List.forall_mem_nil _)
    (fun _ _ first rest => List.forall_mem_cons.2 ⟨first, rest⟩) (fun _ _ h => h) e

/-! ## Parts -/

/-- The first formula stands somewhere in the second, or is all of it. -/
inductive Part (a : Formula α) : Formula α → Prop where
  | whole : Part a a
  | term {m : Polarity × Formula α} {ts : List (Polarity × Formula α)} (mem : m ∈ ts)
      (part : Part a m.2) : Part a (sum ts)
  | factor {m : Polarity × Formula α} {fs : List (Polarity × Formula α)} (mem : m ∈ fs)
      (part : Part a m.2) : Part a (product fs)
  | base {b e : Formula α} (part : Part a b) : Part a (pow b e)
  | exponent {b e : Formula α} (part : Part a e) : Part a (pow b e)
  | argument {f : FunctionName} {b : Formula α} (part : Part a b) : Part a (func f b)

section Values

variable [Scalar α] [DecidableLT α] [Transcendental α]

theorem sumFrom?_eq_none {x : α} {ts : List (Polarity × Formula α)} {m : Polarity × Formula α}
    (mem : m ∈ ts) (h : eval? x m.2 = none) (acc : α) : sumFrom? x acc ts = none := by
  induction ts generalizing acc with
  | nil => cases mem
  | cons n ts ih =>
    rw [sumFrom?]
    rcases List.mem_cons.1 mem with rfl | mem
    · rw [h]
    · split
      · exact ih mem _
      · rfl

theorem productFrom?_eq_none {x : α} {fs : List (Polarity × Formula α)}
    {m : Polarity × Formula α} (mem : m ∈ fs) (h : eval? x m.2 = none) (acc : α) :
    productFrom? x acc fs = none := by
  induction fs generalizing acc with
  | nil => cases mem
  | cons n fs ih =>
    rw [productFrom?]
    rcases List.mem_cons.1 mem with rfl | mem
    · rw [h]
    · split
      · split
        · exact ih mem _
        · rfl
      · rfl

/-- **A part without a value** leaves the whole without one. -/
theorem eval?_eq_none_of_part {a e : Formula α} (part : Part a e) {x : α}
    (h : eval? x a = none) : eval? x e = none := by
  induction part with
  | whole => exact h
  | term mem _ ih =>
    rw [eval?]
    exact sumFrom?_eq_none mem ih _
  | factor mem _ ih =>
    rw [eval?]
    exact productFrom?_eq_none mem ih _
  | base _ ih => rw [eval?, ih]
  | exponent _ ih =>
    rw [eval?, ih]
    split
    · rename_i none
      cases none
    · rfl
  | argument _ ih => rw [eval?, ih]

end Values

/-! ## Constants -/

mutual

/-- The constants of a formula, from left to right. -/
def constants {α : Type} : Formula α → List α
  | const v => [v]
  | var => []
  | sum ts => memberConstants ts
  | product fs => memberConstants fs
  | pow b e => constants b ++ constants e
  | func _ a => constants a
  | invalid => []

/-- The constants of the members of a sum or product. -/
def memberConstants {α : Type} : List (Polarity × Formula α) → List α
  | [] => []
  | (_, e) :: ms => constants e ++ memberConstants ms

end

theorem mem_memberConstants {ms : List (Polarity × Formula α)} {c : α} :
    c ∈ memberConstants ms ↔ ∃ m ∈ ms, c ∈ m.2.constants := by
  induction ms with
  | nil => simp [memberConstants]
  | cons m ms ih =>
    obtain ⟨p, e⟩ := m
    simp only [memberConstants, List.mem_append, ih, List.mem_cons, exists_eq_or_imp]

/-- All constants of the formula are in `S`. -/
def Over (S : α → Prop) (e : Formula α) : Prop := ∀ c ∈ e.constants, S c

variable {S : α → Prop}

theorem forall_memberConstants {ms : List (Polarity × Formula α)} :
    (∀ c ∈ memberConstants ms, S c) ↔ ∀ m ∈ ms, m.2.Over S := by
  constructor
  · intro h m hm c hc
    exact h c (mem_memberConstants.2 ⟨m, hm, hc⟩)
  · intro h c hc
    obtain ⟨m, hm, hc⟩ := mem_memberConstants.1 hc
    exact h m hm c hc

theorem over_const {v : α} : (const v).Over S ↔ S v := by
  simp only [Over, constants, List.mem_singleton, forall_eq]

theorem over_sum {ts : List (Polarity × Formula α)} : (sum ts).Over S ↔ ∀ m ∈ ts, m.2.Over S := by
  rw [Over, constants]
  exact forall_memberConstants

theorem over_product {fs : List (Polarity × Formula α)} :
    (product fs).Over S ↔ ∀ m ∈ fs, m.2.Over S := by
  rw [Over, constants]
  exact forall_memberConstants

theorem over_pow {b e : Formula α} : (pow b e).Over S ↔ b.Over S ∧ e.Over S := by
  rw [Over, constants, List.forall_mem_append]
  rfl

theorem over_func {f : FunctionName} {a : Formula α} : (func f a).Over S ↔ a.Over S := by
  rw [Over, constants]
  rfl

end Formula

end CurvePuzzle
