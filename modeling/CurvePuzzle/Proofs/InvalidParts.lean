import CurvePuzzle.Proofs.CanonicalText
import CurvePuzzle.Proofs.FormulaParts
import CurvePuzzle.Proofs.Hits

/-!
# Formulas with an invalid part

Tracing and hit testing look for `invalid` at the root of a formula only. A formula with an invalid
part further down is harmless all the same: it has no value anywhere, so nothing is sampled and
nothing is hit.

* `print?_eq_none_of_part`: a part without a canonical text leaves the whole without one.
* `Tracer.eq_nil_of_traceFormula?`: a formula without values has no branches.
* `Formula.invalid_part_is_inert`: what follows for a formula with an invalid part.
-/

set_option autoImplicit false

namespace CurvePuzzle

namespace Formula

/-! ## Canonical text -/

theorem eq_none_of_member {text : Option (List Char)} {ms : List (Polarity × Formula Float)}
    (members : (∃ cs, text = some cs) ↔ ∀ m ∈ ms, ∃ s, print? m.2 = some s)
    {m : Polarity × Formula Float} (mem : m ∈ ms) (h : print? m.2 = none) : text = none := by
  cases text with
  | none => rfl
  | some cs =>
    obtain ⟨s, some⟩ := members.1 ⟨cs, rfl⟩ m mem
    rw [h] at some
    cases some

/-- **A part without a canonical text** leaves the whole without one. -/
theorem print?_eq_none_of_part {a e : Formula Float} (part : Part a e) (h : print? a = none) :
    print? e = none := by
  induction part with
  | whole => exact h
  | term mem _ ih =>
    rw [print?, eq_none_of_member exists_printTerms? mem ih]
    split <;> rfl
  | factor mem _ ih =>
    rw [print?, eq_none_of_member exists_printFactors? mem ih]
    split <;> rfl
  | base _ ih => rw [print?, ih]
  | exponent _ ih =>
    rw [print?, ih]
    split
    · rename_i none
      cases none
    · rfl
  | argument _ ih => rw [print?, ih]

end Formula

/-! ## Branches and hits -/

/-- **No values, no branches**: the coarse scan finds no seed, whatever the tracer. -/
theorem Tracer.eq_nil_of_traceFormula? {t : Tracer Float} {e : Formula Float} {rounds : Nat}
    {branches : List (Branch Float)} (undefined : ∀ x, e.eval? x = none)
    (h : t.traceFormula? e rounds = some branches) : branches = [] := by
  unfold traceFormula? at h
  split at h
  · exact (Option.some.inj h).symm
  · refine List.eq_nil_iff_forall_not_mem.2 ?_
    refine scan?_induction (P := fun _ => True) (Q := fun _ => False) h trivial
      (fun _ _ _ => trivial) ?_
    intro c seed b _ _ sample _
    have value := (sample?_eq_some_iff.1 sample).2.1
    rw [undefined c] at value
    cases value

theorem Dot.not_touches_of_undefined {d : Dot} {e : Formula Float}
    (undefined : ∀ x, e.eval? x = none) : ¬d.Touches e := by
  rintro ⟨x, y, value, -, -⟩
  rw [undefined x] at value
  cases value

namespace Formula

/-- **An invalid part spoils the whole.** A formula with an invalid part, at whatever depth, has no
value anywhere, no canonical text and no branches, and it hits no dot: not by the search, not
without runs, and not with its own runs. Its values are missing because a part without a value
leaves every formula without one. -/
theorem invalid_part_is_inert :
    (∀ e : Formula Float, Part .invalid e →
      (∀ x, e.eval? x = none) ∧ e.print? = none ∧
      (∀ (t : Tracer Float) (rounds : Nat) (branches : List (Branch Float)),
        t.traceFormula? e rounds = some branches → branches = []) ∧
      ∀ (d : Dot) (source : RandomSource),
        (d.isHitBySearch e source).value.1 = false ∧
        (d.isHit e none source).value.1 = false ∧
        ∀ (t : Tracer Float) (rounds : Nat) (branches : List (Branch Float)),
          t.traceFormula? e rounds = some branches →
            (d.isHit e (some (branches.map Branch.run)) source).value.1 = false) ∧
    ∀ (a e : Formula Float), Part a e → ∀ x, a.eval? x = none → e.eval? x = none := by
  refine ⟨?_, fun a e part x => eval?_eq_none_of_part part⟩
  intro e part
  have undefined (x : Float) : e.eval? x = none := eval?_eq_none_of_part part (by rw [eval?])
  refine ⟨undefined, print?_eq_none_of_part part (by rw [print?]), ?_, ?_⟩
  · intro t rounds branches
    exact Tracer.eq_nil_of_traceFormula? undefined
  · intro d source
    have missed : ¬d.Touches e := Dot.not_touches_of_undefined undefined
    refine ⟨?_, ?_, ?_⟩
    · exact Bool.eq_false_iff.2 (mt Dot.touches_of_isHitBySearch missed)
    · exact Bool.eq_false_iff.2 (mt Dot.touches_of_isHit_none missed)
    · intro t rounds branches traced
      exact Bool.eq_false_iff.2
        (mt (Dot.touches_of_isHit_some (Dot.touches_of_isHitByRuns traced)) missed)

/-- A difference with an invalid exponent deep inside is traced to nothing and misses a dot at the
origin; the sine of `1 / x` has no value where `1 / x` has none. -/
theorem invalid_exponent_is_inert :
    let e : Formula Float := .sum [(.direct, .var), (.inverse, .pow .var .invalid)]
    let t : Tracer Float := ⟨⟨5.0, 6.0, 1.0⟩, { Sampling.standard with largeIncrement := 1.0 }⟩
    Part .invalid e ∧ e.eval? 1.0 = none ∧ e.print? = none ∧ t.traceFormula? e 3 = some [] ∧
      ((⟨0.0, 0.0, .bad⟩ : Dot).isHit e (some []) (.seeded 0)).value.1 = false ∧
      (func .sin (product [(.direct, const 1.0), (.inverse, var)])).eval? (0.0 : Float) = none := by
  intro e t
  have part : Part .invalid e :=
    .term (m := (.inverse, .pow .var .invalid)) (by simp) (.exponent .whole)
  obtain ⟨undefined, unprinted, untraced, missed⟩ := invalid_part_is_inert.1 e part
  obtain ⟨branches, traced⟩ : ∃ branches, t.traceFormula? e 3 = some branches := by
    refine Option.isSome_iff_exists.1 ?_
    decide +kernel
  obtain rfl := untraced t 3 branches traced
  refine ⟨part, undefined 1.0, unprinted, traced, ?_, ?_⟩
  · exact (missed ⟨0.0, 0.0, .bad⟩ (.seeded 0)).2.2 t 3 [] traced
  · refine invalid_part_is_inert.2 _ _ (.argument .whole) 0.0 ?_
    exact Option.isNone_iff_eq_none.1 (by decide +kernel)

end Formula

end CurvePuzzle
