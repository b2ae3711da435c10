import CurvePuzzle.Proofs.CanonicalText
import CurvePuzzle.Proofs.FloatUndefined

/-!
# Canonical text means what the formula means

A formula with a canonical text may be read back as another formula: a product of one undivided
factor becomes the factor, a leading divisor goes below a `1`, and a sign may become the sign of a
numeral. None of this changes a value, but for the sign of a zero.

* `Library`: where power and functions come from; `Library.guarded`: what the program makes of them.
* `Library.ZeroLaws`, `SignBlind`: what a library gives at the two zeros, so the sign of a zero is
  not passed on.
* `LoneOverflow`: the one exception. A product must stay finite; a factor that is no longer in a
  product need not.
* `eval?_reread`: the formula that is read back has the value of the formula.
* `canonical_text_keeps_value`: so a canonical text means what the formula means.
-/

set_option autoImplicit false

namespace CurvePuzzle

open Binary64

/-- A library of the power and the functions, which are defined everywhere. -/
structure Library where
  pow : Float → Float → Float
  apply : FunctionName → Float → Float

namespace Library

/-- Power and functions as formulas use them: a power must be finite, and a function must accept its
argument. -/
@[reducible] def guarded (l : Library) : Transcendental Float where
  pow? a b :=
    let v := l.pow a b
    if v.isFinite then some v else none
  value? f v := if f.accepts v then some (l.apply f v) else none

/-- The library of the program. -/
def float : Library := ⟨Float.pow, FunctionName.apply⟩

theorem guarded_float : float.guarded = inferInstanceAs (Transcendental Float) := rfl

/-- **A library at the zeros**, whatever their signs: a zeroth power is one, a positive power of
zero is zero and any other is not finite, and each function but the logarithm is zero or one. -/
structure ZeroLaws (l : Library) : Prop where
  pow_zero (u : Float) {z : Float} (zero : code z = 0) : l.pow u z = 1.0
  zero_pow {z v : Float} (zero : code z = 0) (pos : 0 < v) : code (l.pow z v) = 0
  zero_pow_infinite {z v : Float} (zero : code z = 0) (ne : code v ≠ 0) (not_pos : ¬0 < v) :
    (l.pow z v).isFinite = false
  zero_at {f : FunctionName} (odd : f ∈ [.abs, .sin, .tan]) {z : Float} (zero : code z = 0) :
    code (l.apply f z) = 0
  one_at {f : FunctionName} (even : f ∈ [.exp, .cos]) {z : Float} (zero : code z = 0) :
    l.apply f z = 1.0

end Library

/-- Power and functions that do not pass on the sign of a zero. -/
structure SignBlind [Transcendental Float] : Prop where
  pow? {u u' v v' : Float} (base : SameValue u u') (exponent : SameValue v v') :
    Option.Rel SameValue (Transcendental.pow? u v) (Transcendental.pow? u' v')
  value? (f : FunctionName) {v v' : Float} (argument : SameValue v v') :
    Option.Rel SameValue (Transcendental.value? f v) (Transcendental.value? f v')

theorem sameValue_of_eq {a b : Option Float} (h : a = b) : Option.Rel SameValue a b := by
  subst h
  cases a with
  | none => exact .none
  | some v => exact .some (.refl v)

namespace Library.ZeroLaws

variable {l : Library}

/-- A power, as far as it is finite, does not depend on the signs of zeros. -/
theorem sameValue_pow (laws : l.ZeroLaws) {u u' v v' : Float} (base : SameValue u u')
    (exponent : SameValue v v') :
    SameValue (l.pow u v) (l.pow u' v') ∨
      (l.pow u v).isFinite = false ∧ (l.pow u' v').isFinite = false := by
  by_cases zero : code v = 0
  · rw [laws.pow_zero u zero, laws.pow_zero u' (exponent.code_eq ▸ zero)]
    exact .inl (.refl _)
  · obtain rfl := exponent.eq_of_code_ne zero
    rcases base with rfl | ⟨hu, hu'⟩
    · exact .inl (.refl _)
    · by_cases pos : 0 < v
      · exact .inl (.inr ⟨laws.zero_pow hu pos, laws.zero_pow hu' pos⟩)
      · exact .inr ⟨laws.zero_pow_infinite hu zero pos, laws.zero_pow_infinite hu' zero pos⟩

/-- No function but the logarithm depends on the sign of a zero. -/
theorem sameValue_apply (laws : l.ZeroLaws) {f : FunctionName} (ne : f ≠ .ln) {z z' : Float}
    (hz : code z = 0) (hz' : code z' = 0) : SameValue (l.apply f z) (l.apply f z') := by
  have vanishing (odd : f ∈ [FunctionName.abs, .sin, .tan]) :
      SameValue (l.apply f z) (l.apply f z') := .inr ⟨laws.zero_at odd hz, laws.zero_at odd hz'⟩
  have even (even : f ∈ [FunctionName.exp, .cos]) :
      SameValue (l.apply f z) (l.apply f z') :=
    .inl ((laws.one_at even hz).trans (laws.one_at even hz').symm)
  cases f with
  | abs => exact vanishing (by decide)
  | sin => exact vanishing (by decide)
  | tan => exact vanishing (by decide)
  | exp => exact even (by decide)
  | cos => exact even (by decide)
  | ln => exact absurd rfl ne

/-- No function accepts one zero and not the other; the logarithm accepts neither. -/
theorem accepts_zero {z : Float} (zero : code z = 0) (f : FunctionName) :
    f.accepts z = decide (f ≠ .ln) := by
  have finite : z.isFinite = true := by
    rw [isFinite_iff, zero]
    exact infinityCode_pos
  cases f with
  | ln =>
    have not_pos : ¬0 < z := fun pos => code_ne_zero_of_pos pos zero
    simp only [FunctionName.accepts, not_pos, decide_false, Bool.and_false, ne_eq, not_true]
  | _ => exact finite

/-- **What the guards leave of a library** does not pass on the sign of a zero. -/
theorem signBlind (laws : l.ZeroLaws) : @SignBlind l.guarded := by
  let _ : Transcendental Float := l.guarded
  refine ⟨?_, ?_⟩
  · intro u u' v v' base exponent
    show Option.Rel SameValue (if (l.pow u v).isFinite then _ else _)
      (if (l.pow u' v').isFinite then _ else _)
    rcases laws.sameValue_pow base exponent with same | ⟨infinite, infinite'⟩
    · rw [same.isFinite_eq]
      split
      · exact .some same
      · exact .none
    · rw [infinite, infinite']
      exact .none
  · intro f v v' argument
    rcases argument with rfl | ⟨hv, hv'⟩
    · exact sameValue_of_eq rfl
    · show Option.Rel SameValue (if f.accepts v then _ else _) (if f.accepts v' then _ else _)
      rw [accepts_zero hv, accepts_zero hv']
      by_cases ne : f ≠ .ln
      · rw [decide_eq_true ne]
        exact .some (laws.sameValue_apply ne hv hv')
      · rw [decide_eq_false ne]
        exact .none

end Library.ZeroLaws

namespace Formula

/-! ## One factor or term -/

theorem sameValue_filter {v v' : Float} (h : SameValue v v') :
    Option.Rel SameValue ((some v).filter Scalar.isFinite) ((some v').filter Scalar.isFinite) := by
  have same : Scalar.isFinite v = Scalar.isFinite v' := h.isFinite_eq
  rw [Option.filter_some, Option.filter_some, same]
  split
  · exact .some h
  · exact .none

theorem sameValue_multiply? {u u' v v' : Float} (acc : SameValue u u') (p : Polarity)
    (factor : SameValue v v') :
    Option.Rel SameValue (multiply? u p v) (multiply? u' p v') := by
  cases p with
  | direct => exact sameValue_filter (acc.mul factor)
  | inverse =>
    have small {w : Float} : Scalar.abs w < (1e-10 : Float) ↔ code w < code 1e-10 :=
      abs_lt_tolerance_iff
    have divided (s w : Float) : multiply? s .inverse w =
        if Scalar.abs w < (1e-10 : Float) then none else (some (s / w)).filter Scalar.isFinite := by
      show (if Scalar.abs w < (1e-10 : Float) then none else some (s / w)).filter _ = _
      split <;> rfl
    rw [divided, divided]
    by_cases tiny : code v < code 1e-10
    · rw [if_pos (small.2 tiny), if_pos (small.2 (factor.code_eq ▸ tiny))]
      exact .none
    · -- the divisor is no zero, so it is the same on both sides
      have pos : 0 < code 1e-10 := by decide
      obtain rfl := factor.eq_of_code_ne (by omega)
      rw [if_neg (mt small.1 tiny), if_neg (mt small.1 tiny)]
      exact sameValue_filter (acc.div v)

/-- A lone undivided factor with a finite value is the product. -/
theorem multiply?_one (v : Float) :
    multiply? 1.0 .direct v = if v.isFinite then some v else none := by
  have product : multiply? 1.0 .direct v = (some (1.0 * v)).filter Scalar.isFinite := rfl
  have finite : Scalar.isFinite (1.0 * v) = v.isFinite := (sameNumber_one_mul v).isFinite_eq
  rw [product, Option.filter_some, finite]
  split
  · rename_i finite
    rw [one_mul_eq (Nat.le_of_lt ((isFinite_iff v).1 finite))]
  · rfl

theorem unit_mul (p : Polarity) {v : Float} (h : v.isFinite = true) :
    p.unit * v = p.signed v := by
  have defined := Nat.le_of_lt ((isFinite_iff v).1 h)
  cases p with
  | direct => exact one_mul_eq defined
  | inverse => exact neg_one_mul_eq defined

theorem isFinite_signed (p : Polarity) {v : Float} (h : v.isFinite = true) :
    (p.signed v).isFinite = true := by
  cases p with
  | direct => exact h
  | inverse =>
    have finite := (isFinite_iff v).1 h
    show (-v).isFinite = true
    rw [isFinite_iff, (stands_neg (Nat.le_of_lt finite)).code]
    exact finite

/-! ## Sums and products -/

section Values

variable [Transcendental Float] {x : Float}

/-- The value of a product of one undivided factor. -/
theorem eval?_product_single (f : Formula Float) :
    eval? x (product [(.direct, f)]) =
      (eval? x f).filter fun v => v.isFinite := by
  rw [eval?, productFrom?]
  cases eval? x f with
  | none => rfl
  | some v =>
    simp only [multiply?_one, Option.filter_some]
    cases v.isFinite with
    | true => simp [productFrom?]
    | false => rfl

/-- What is read back of each member has the value of the member. -/
def MembersKeepValue (x : Float) (ms : List (Polarity × Formula Float)) : Prop :=
  ∀ m ∈ ms, Option.Rel SameValue (eval? x m.2.reread) (eval? x m.2)

theorem sumFrom?_reread {ts : List (Polarity × Formula Float)} (h : MembersKeepValue x ts)
    {s s' : Float} (acc : SameValue s s') :
    Option.Rel SameValue (sumFrom? x s (rereadMembers ts)) (sumFrom? x s' ts) := by
  induction ts generalizing s s' with
  | nil =>
    rw [rereadMembers, sumFrom?, sumFrom?]
    exact .some acc
  | cons m ts ih =>
    obtain ⟨p, t⟩ := m
    obtain ⟨first, rest⟩ := List.forall_mem_cons.1 h
    rw [rereadMembers, sumFrom?, sumFrom?]
    simp only at first
    generalize eval? x t.reread = a at first ⊢
    generalize eval? x t = b at first ⊢
    cases first with
    | none => exact .none
    | some term => exact ih rest (acc.add ((SameValue.refl _).mul term))

theorem productFrom?_reread {fs : List (Polarity × Formula Float)} (h : MembersKeepValue x fs)
    {s s' : Float} (acc : SameValue s s') :
    Option.Rel SameValue (productFrom? x s (rereadMembers fs)) (productFrom? x s' fs) := by
  induction fs generalizing s s' with
  | nil =>
    rw [rereadMembers, productFrom?, productFrom?]
    exact .some acc
  | cons m fs ih =>
    obtain ⟨p, f⟩ := m
    obtain ⟨first, rest⟩ := List.forall_mem_cons.1 h
    rw [rereadMembers, productFrom?, productFrom?]
    simp only at first
    generalize eval? x f.reread = a at first ⊢
    generalize eval? x f = b at first ⊢
    cases first with
    | none => exact .none
    | @some v v' factor =>
      have next := sameValue_multiply? acc p factor
      simp only
      generalize multiply? s p v = c at next ⊢
      generalize multiply? s' p v' = d at next ⊢
      cases next with
      | none => exact .none
      | some next => exact ih rest next

/-! ## Formulas -/

/-- Some product of one undivided factor in the formula has a factor whose value is not finite. -/
def LoneOverflow (x : Float) (e : Formula Float) : Prop :=
  ∃ f v, Part (product [(.direct, f)]) e ∧ eval? x f = some v ∧ v.isFinite = false

theorem eval?_eq_none_of_loneOverflow {e : Formula Float} (h : LoneOverflow x e) :
    eval? x e = none := by
  obtain ⟨f, v, part, value, infinite⟩ := h
  refine eval?_eq_none_of_part part ?_
  rw [eval?_product_single, value, Option.filter_some, infinite]
  rfl

/-- A sign that becomes the sign of a numeral keeps its meaning. -/
theorem eval?_rereadSum {ts : List (Polarity × Formula Float)} (h : MembersKeepValue x ts)
    (tame : ∀ m ∈ ts, ¬LoneOverflow x m.2) :
    Option.Rel SameValue (eval? x (rereadSum (loneConst? ts) (rereadMembers ts)))
      (eval? x (sum ts)) := by
  cases lone : loneConst? ts with
  | none =>
    rw [rereadSum, eval?, eval?]
    exact sumFrom?_reread h (.refl _)
  | some v =>
    obtain ⟨p, w, rfl, rfl⟩ : ∃ p w, ts = [(p, product [(.direct, const w)])] ∧ v = p.signed w := by
      unfold loneConst? at lone
      split at lone
      · rename_i p t
        split at lone
        · cases lone
        · rename_i other
          obtain ⟨w, bare, rfl⟩ := Option.map_eq_some_iff.1 lone
          unfold bareConst? at bare
          split at bare
          · exact absurd rfl other
          · split at bare
            · cases bare
            · obtain rfl := Option.some.inj bare
              exact ⟨p, _, rfl, rfl⟩
          · cases bare
      · cases lone
    have finite : w.isFinite = true := by
      by_contra infinite
      exact tame _ List.mem_cons_self
        ⟨const w, w, .whole, by rw [eval?], Bool.eq_false_iff.2 infinite⟩
    have factor : eval? x (product [(.direct, const w)]) = some w := by
      rw [eval?_product_single, eval?, Option.filter_some, finite]
      rfl
    rw [rereadSum, eval?, eval?, sumFrom?, factor]
    simp only [sumFrom?, unit_mul p finite]
    exact .some (sameValue_zero_add (isFinite_signed p finite)).symm

/-- A factor that leaves its product keeps its value, if that is finite, and a divisor that goes
below a `1` divides the same number. -/
theorem eval?_rereadProduct {fs : List (Polarity × Formula Float)} (h : MembersKeepValue x fs)
    (tame : ¬LoneOverflow x (product fs)) :
    Option.Rel SameValue (eval? x (rereadProduct (rereadMembers fs))) (eval? x (product fs)) := by
  have kept : Option.Rel SameValue (productFrom? x 1.0 (rereadMembers fs))
      (productFrom? x 1.0 fs) := productFrom?_reread h (.refl _)
  match fs with
  | [] => exact sameValue_of_eq rfl
  | [(.direct, f)] =>
    have factor : eval? x (product [(.direct, f)]) = eval? x f := by
      rw [eval?_product_single]
      cases value : eval? x f with
      | none => rfl
      | some v =>
        have finite : v.isFinite = true := by
          by_contra infinite
          exact tame ⟨f, v, .whole, value, Bool.eq_false_iff.2 infinite⟩
        rw [Option.filter_some, finite]
        rfl
    rw [factor]
    exact h (.direct, f) List.mem_cons_self
  | (.inverse, f) :: fs =>
    have one : multiply? (1.0 : Float) .direct 1.0 = some 1.0 := by decide
    have below : eval? x (rereadProduct (rereadMembers ((.inverse, f) :: fs))) =
        productFrom? x 1.0 (rereadMembers ((.inverse, f) :: fs)) := by
      rw [rereadMembers, rereadProduct, eval?, productFrom?, eval?]
      simp only [one]
    rw [below, eval?]
    exact kept
  | (.direct, f) :: m :: fs =>
    rw [eval?]
    exact kept

/-- **The formula that is read back has the value of the formula**, by induction on the formula. -/
theorem eval?_reread (blind : SignBlind) {e : Formula Float} (tame : ¬LoneOverflow x e) :
    Option.Rel SameValue (eval? x e.reread) (eval? x e) := by
  have inherit {a b : Formula Float} (part : ∀ c, Part c a → Part c b)
      (h : ¬LoneOverflow x b) : ¬LoneOverflow x a := by
    rintro ⟨f, v, within, value⟩
    exact h ⟨f, v, part _ within, value⟩
  induction e using inductionOn with
  | const v => exact sameValue_of_eq (by rw [reread])
  | var => exact sameValue_of_eq (by rw [reread])
  | sum ts ih =>
    have terms : ∀ m ∈ ts, ¬LoneOverflow x m.2 := fun m hm => inherit (fun _ => .term hm) tame
    rw [reread]
    exact eval?_rereadSum (fun m hm => ih m hm (terms m hm)) terms
  | product fs ih =>
    rw [reread]
    exact eval?_rereadProduct
      (fun m hm => ih m hm (inherit (fun _ => .factor hm) tame)) tame
  | pow b e ihb ihe =>
    have base := ihb (inherit (fun _ => .base) tame)
    have exponent := ihe (inherit (fun _ => .exponent) tame)
    rw [reread, eval?, eval?]
    generalize eval? x b.reread = a, eval? x b = a' at base ⊢
    generalize eval? x e.reread = c, eval? x e = c' at exponent ⊢
    cases base with
    | none => exact .none
    | some base =>
      cases exponent with
      | none => exact .none
      | some exponent => exact blind.pow? base exponent
  | func f a ih =>
    have argument := ih (inherit (fun _ => .argument) tame)
    rw [reread, eval?, eval?]
    generalize eval? x a.reread = c, eval? x a = c' at argument ⊢
    cases argument with
    | none => exact .none
    | some argument => exact blind.value? f argument
  | invalid => exact sameValue_of_eq (by rw [reread])

end Values

/-- **A canonical text means what the formula means**, at every number: reading it gives a formula
of the same value, a zero up to its sign, or without one where the formula has none. The exception
is a formula without a value because a product of one undivided factor is not finite; the text shows
the factor alone, which may be infinite. -/
theorem canonical_text_keeps_value {l : Library} (laws : l.ZeroLaws) {e : Formula Float}
    {cs : List Char} (print : e.print? = some cs) (x : Float) :
    let _ : Transcendental Float := l.guarded
    Option.Rel SameValue (eval? x (read (String.ofList cs))) (eval? x e) ∨
      eval? x e = none ∧ LoneOverflow x e := by
  intro _
  by_cases overflow : LoneOverflow x e
  · exact .inr ⟨eval?_eq_none_of_loneOverflow overflow, overflow⟩
  · rw [read_print? print]
    exact .inl (eval?_reread laws.signBlind overflow)

/-- A library of the leading terms at zero. -/
def leadingTerms : Library where
  pow u v :=
    if code v = 0 then 1.0
    else if code u = 0 ∧ ¬0 < v then 1.0 / 0.0
    else u
  apply f v :=
    match f with
    | .abs => v.abs
    | .exp => 1.0
    | .ln => v - 1.0
    | .sin => v
    | .cos => 1.0
    | .tan => v

theorem zeroLaws_leadingTerms : leadingTerms.ZeroLaws where
  pow_zero _ _ zero := if_pos zero
  zero_pow {z v} zero pos := by
    have power : leadingTerms.pow z v = z :=
      (if_neg (code_ne_zero_of_pos pos)).trans (if_neg fun h => h.2 pos)
    rw [power, zero]
  zero_pow_infinite {z v} zero ne not_pos := by
    have power : leadingTerms.pow z v = 1.0 / 0.0 := (if_neg ne).trans (if_pos ⟨zero, not_pos⟩)
    rw [power]
    decide
  zero_at {f} odd {z} zero := by
    have magnitude : code z.abs = 0 := by rw [(stands_abs (by omega)).code, zero]
    cases f with
    | abs => exact magnitude
    | sin => exact zero
    | tan => exact zero
    | _ => exact absurd odd (by decide)
  one_at {f} even _ _ := by
    cases f with
    | exp => rfl
    | cos => rfl
    | _ => exact absurd even (by decide)

/-- A leading divisor goes below a `1`, and the sign of a sum becomes the sign of a zero. -/
theorem canonical_text_keeps_value_cosine :
    let e : Formula Float := product [(.inverse, func .cos (sum [(.inverse,
      product [(.direct, const 0.0)])])), (.direct, var)]
    leadingTerms.ZeroLaws ∧ e.print? = some "1/cos(-0)*x".toList ∧
      read "1/cos(-0)*x" = product [(.direct, const 1.0), (.inverse, func .cos (const (-0.0))),
        (.direct, var)] ∧
      Option.Rel SameValue (@eval? Float _ _ leadingTerms.guarded 3.0 (read "1/cos(-0)*x"))
        (some 3.0) := by
  intro e
  let _ : Transcendental Float := leadingTerms.guarded
  have print : e.print? = some "1/cos(-0)*x".toList := by decide
  have value : eval? 3.0 e = some 3.0 := by decide
  have reading : read (String.ofList "1/cos(-0)*x".toList) = e.reread := read_print? print
  rw [String.ofList_toList] at reading
  refine ⟨zeroLaws_leadingTerms, print, reading, ?_⟩
  rcases canonical_text_keeps_value zeroLaws_leadingTerms print 3.0 with same | ⟨none, -⟩
  · rwa [String.ofList_toList, value] at same
  · rw [value] at none
    cases none

/-- **A factor may leave its product and become infinite**: the text of a product of the one factor
`x+x` is read as the sum, which has a value where the product has overflown. -/
theorem canonical_text_gains_value :
    let e : Formula Float := product [(.direct, sum [(.direct, var), (.direct, var)])]
    e.print? = some "(x+x)".toList ∧ (1e308 : Float).isFinite = true ∧ eval? 1e308 e = none ∧
      ¬Option.Rel SameValue (eval? 1e308 (read (String.ofList "(x+x)".toList)))
        (eval? 1e308 e) := by
  intro e
  have print : e.print? = some "(x+x)".toList := by decide
  have overflow : eval? 1e308 e = none := by decide +kernel
  have gained : eval? 1e308 e.reread ≠ none := by decide
  refine ⟨print, by decide +kernel, overflow, ?_⟩
  rw [read_print? print, overflow]
  intro same
  generalize eval? 1e308 e.reread = value at same gained
  cases same
  exact gained rfl

end Formula

end CurvePuzzle
