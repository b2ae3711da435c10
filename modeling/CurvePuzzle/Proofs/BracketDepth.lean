import CurvePuzzle.Bracket

/-!
# Brackets by depth

Everything that is asked about brackets is answered by one number, the depth that is reached when a
text is read from a given depth on.

* `depthAfter?` is that number, absent when a bracket is closed that was never opened.
  `depthAfter?_append` reads a text piece by piece, `depthAfter?_mirror` from the other side.
* `balanced_iff`: balanced means that depth 0 is reached from depth 0.
* `closing?_eq_some_iff`, `opening?_eq_some_iff`: both searches stop at the end of a balanced text.
* `isEnclosed_iff`: an enclosed text is a balanced one in brackets.
-/

set_option autoImplicit false

namespace CurvePuzzle.Bracket

/-- The number of open brackets after a text, when `depth` were open before it. -/
def depthAfter? : Nat → List Char → Option Nat
  | depth, [] => some depth
  | depth, c :: cs =>
    if c == '(' then depthAfter? (depth + 1) cs
    else if c == ')' then
      match depth with
      | 0 => none
      | depth + 1 => depthAfter? depth cs
    else depthAfter? depth cs

@[simp] theorem depthAfter?_nil (d : Nat) : depthAfter? d [] = some d := rfl

@[simp] theorem depthAfter?_open (d : Nat) (cs : List Char) :
    depthAfter? d ('(' :: cs) = depthAfter? (d + 1) cs := rfl

@[simp] theorem depthAfter?_close_zero (cs : List Char) : depthAfter? 0 (')' :: cs) = none := rfl

@[simp] theorem depthAfter?_close_succ (d : Nat) (cs : List Char) :
    depthAfter? (d + 1) (')' :: cs) = depthAfter? d cs := rfl

theorem depthAfter?_other {c : Char} (ho : c ≠ '(') (hc : c ≠ ')') (d : Nat) (cs : List Char) :
    depthAfter? d (c :: cs) = depthAfter? d cs := by
  simp [depthAfter?, ho, hc]

theorem depthAfter?_append (d : Nat) (u v : List Char) :
    depthAfter? d (u ++ v) = (depthAfter? d u).bind fun e => depthAfter? e v := by
  induction u generalizing d with
  | nil => rfl
  | cons c u ih =>
    simp only [List.cons_append, depthAfter?]
    split
    · exact ih (d + 1)
    · split
      · cases d with
        | zero => rfl
        | succ d => exact ih d
      · exact ih d

/-- Further brackets that are open around a text change nothing within it. -/
theorem depthAfter?_add {d e : Nat} {u : List Char} (k : Nat) (h : depthAfter? d u = some e) :
    depthAfter? (d + k) u = some (e + k) := by
  induction u generalizing d with
  | nil =>
    obtain rfl := Option.some.inj h
    rfl
  | cons c u ih =>
    simp only [depthAfter?] at h ⊢
    split at h
    · rename_i ho
      rw [if_pos ho, Nat.add_right_comm]
      exact ih h
    · rename_i ho
      rw [if_neg ho]
      split at h
      · rename_i hc
        rw [if_pos hc]
        cases d with
        | zero => simp at h
        | succ d =>
          rw [show d + 1 + k = d + k + 1 by omega]
          exact ih h
      · rename_i hc
        rw [if_neg hc]
        exact ih h

theorem depthAfter?_of_plain {d : Nat} {u : List Char} (h : ∀ c ∈ u, c ≠ '(' ∧ c ≠ ')') :
    depthAfter? d u = some d := by
  induction u with
  | nil => rfl
  | cons c u ih =>
    obtain ⟨ho, hc⟩ := h c List.mem_cons_self
    rw [depthAfter?_other ho hc]
    exact ih fun c hc => h c (List.mem_cons_of_mem _ hc)

/-! ## Balanced texts -/

theorem balancedFrom_iff {d : Nat} {cs : List Char} :
    balancedFrom d cs = true ↔ depthAfter? d cs = some 0 := by
  induction cs generalizing d with
  | nil => simp [balancedFrom]
  | cons c cs ih =>
    simp only [balancedFrom, depthAfter?]
    split
    · exact ih
    · split
      · cases d with
        | zero => simp
        | succ d => exact ih
      · exact ih

theorem balanced_iff {cs : List Char} : balanced cs = true ↔ depthAfter? 0 cs = some 0 :=
  balancedFrom_iff

theorem balanced_append {u v : List Char} (hu : balanced u = true) (hv : balanced v = true) :
    balanced (u ++ v) = true := by
  rw [balanced_iff] at *
  rw [depthAfter?_append, hu]
  exact hv

theorem balanced_enclose {u : List Char} (hu : balanced u = true) :
    balanced ('(' :: (u ++ [')'])) = true := by
  rw [balanced_iff] at *
  rw [depthAfter?_open, depthAfter?_append, depthAfter?_add 1 hu]
  rfl

theorem balanced_of_plain {u : List Char} (h : ∀ c ∈ u, c ≠ '(' ∧ c ≠ ')') :
    balanced u = true :=
  balanced_iff.2 (depthAfter?_of_plain h)

/-! ## Reading from the other side -/

/-- A bracket turned round; other characters stay. -/
def mirror (c : Char) : Char := if c = '(' then ')' else if c = ')' then '(' else c

@[simp] theorem mirror_mirror (c : Char) : mirror (mirror c) = c := by
  unfold mirror
  by_cases ho : c = '('
  · simp [ho]
  · by_cases hc : c = ')'
    · simp [hc]
    · simp [ho, hc]

theorem map_mirror_mirror (u : List Char) : (u.map mirror).map mirror = u := by
  rw [List.map_map, show mirror ∘ mirror = id from funext mirror_mirror, List.map_id]

/-- What a bracket does to the depth, its mirror image undoes. -/
theorem depthAfter?_mirror {d e : Nat} {u : List Char} (h : depthAfter? d u = some e) :
    depthAfter? e (u.reverse.map mirror) = some d := by
  induction u generalizing d with
  | nil =>
    obtain rfl := Option.some.inj h
    rfl
  | cons c u ih =>
    rw [List.reverse_cons, List.map_append, depthAfter?_append]
    simp only [depthAfter?] at h
    split at h
    · rename_i ho
      rw [ih h, eq_of_beq ho]
      rfl
    · rename_i ho
      split at h
      · rename_i hc
        cases d with
        | zero => simp at h
        | succ d =>
          rw [ih h, eq_of_beq hc]
          rfl
      · rename_i hc
        rw [ih h]
        simp only [beq_iff_eq] at ho hc
        simp only [Option.bind_some, List.map_cons, List.map_nil, mirror, ho, hc, if_false]
        exact depthAfter?_other ho hc d []

theorem balanced_mirror (u : List Char) : balanced (u.map mirror) = balanced u.reverse := by
  rw [Bool.eq_iff_iff, balanced_iff, balanced_iff]
  constructor
  · intro h
    have back := depthAfter?_mirror h
    rwa [← List.map_reverse, map_mirror_mirror] at back
  · intro h
    have back := depthAfter?_mirror h
    rwa [List.reverse_reverse] at back

/-! ## Searches -/

/-- Does the bracket behind the first `k` characters close all that is open? -/
def ClosesAt (d k : Nat) (cs : List Char) : Prop :=
  ∃ u v, cs = u ++ ')' :: v ∧ u.length = k ∧ depthAfter? d u = some 0

theorem closesAt_zero_iff {k : Nat} {cs : List Char} : ClosesAt 0 k (')' :: cs) ↔ k = 0 := by
  constructor
  · rintro ⟨u, v, e, rfl, hu⟩
    cases u with
    | nil => rfl
    | cons b u =>
      simp only [List.cons_append, List.cons.injEq] at e
      rw [← e.1] at hu
      simp at hu
  · rintro rfl
    exact ⟨[], cs, rfl, rfl, rfl⟩

/-- A character that does not end the group is the first of the piece. -/
theorem closesAt_cons_iff {c : Char} {d d' k : Nat} {cs : List Char}
    (step : ∀ u, depthAfter? d (c :: u) = depthAfter? d' u) (stays : c = ')' → d ≠ 0) :
    ClosesAt d k (c :: cs) ↔ ∃ j, ClosesAt d' j cs ∧ j + 1 = k := by
  constructor
  · rintro ⟨u, v, e, rfl, hu⟩
    cases u with
    | nil =>
      simp only [List.nil_append, List.cons.injEq] at e
      obtain rfl := Option.some.inj hu
      exact absurd rfl (stays e.1)
    | cons b u =>
      simp only [List.cons_append, List.cons.injEq] at e
      obtain ⟨rfl, rfl⟩ := e
      exact ⟨u.length, ⟨u, v, rfl, rfl, (step u).symm.trans hu⟩, rfl⟩
  · rintro ⟨j, ⟨u, v, rfl, rfl, hu⟩, rfl⟩
    exact ⟨c :: u, v, rfl, rfl, (step u).trans hu⟩

/-- The search for a partner stops behind the shortest piece that closes all that is open. -/
theorem partner?_eq_some_iff {d k : Nat} {cs : List Char} :
    partner? '(' ')' d cs = some k ↔ ClosesAt d k cs := by
  induction cs generalizing d k with
  | nil => simp [partner?, ClosesAt]
  | cons c cs ih =>
    simp only [partner?]
    split
    · rename_i ho
      obtain rfl := eq_of_beq ho
      rw [closesAt_cons_iff (depthAfter?_open d) (by simp), Option.map_eq_some_iff]
      simp only [ih]
    · rename_i ho
      split
      · rename_i hc
        obtain rfl := eq_of_beq hc
        cases d with
        | zero =>
          rw [closesAt_zero_iff]
          simp [eq_comm]
        | succ d =>
          rw [closesAt_cons_iff (depthAfter?_close_succ d) (by simp), Option.map_eq_some_iff]
          simp only [ih]
      · rename_i hc
        simp only [beq_iff_eq] at ho hc
        rw [closesAt_cons_iff (depthAfter?_other ho hc d) (fun e => absurd e hc),
          Option.map_eq_some_iff]
        simp only [ih]

/-- Looking for the partner of a closing bracket is looking for that of an opening one in the
mirror image. -/
theorem partner?_mirror (d : Nat) (cs : List Char) :
    partner? ')' '(' d cs = partner? '(' ')' d (cs.map mirror) := by
  induction cs generalizing d with
  | nil => rfl
  | cons c cs ih =>
    by_cases ho : c = '('
    · subst ho
      cases d with
      | zero => rfl
      | succ d => exact congrArg (Option.map (· + 1)) (ih d)
    · by_cases hc : c = ')'
      · subst hc
        exact congrArg (Option.map (· + 1)) (ih (d + 1))
      · have hm : mirror c = c := by simp [mirror, ho, hc]
        simp only [List.map_cons, partner?, hm]
        simp only [beq_iff_eq, ho, hc, if_false]
        exact congrArg (Option.map (· + 1)) (ih d)

/-- **The closing bracket** is the one behind a balanced text. -/
theorem closing?_eq_some_iff {cs : List Char} {k : Nat} :
    closing? cs = some k ↔
      ∃ u v, cs = u ++ ')' :: v ∧ u.length = k ∧ balanced u = true := by
  simp only [closing?, partner?_eq_some_iff, ClosesAt, balanced_iff]

/-- **The opening bracket** is the one before a balanced text. -/
theorem opening?_eq_some_iff {reversed : List Char} {k : Nat} :
    opening? reversed = some k ↔
      ∃ u v, reversed = u ++ '(' :: v ∧ u.length = k ∧ balanced u.reverse = true := by
  rw [opening?, partner?_mirror, partner?_eq_some_iff]
  constructor
  · rintro ⟨u, v, e, rfl, hu⟩
    refine ⟨u.map mirror, v.map mirror, ?_, List.length_map _, ?_⟩
    · have back := congrArg (List.map mirror) e
      rw [map_mirror_mirror] at back
      rw [back, List.map_append]
      rfl
    · rw [← balanced_mirror, map_mirror_mirror]
      exact balanced_iff.2 hu
  · rintro ⟨u, v, rfl, rfl, hu⟩
    refine ⟨u.map mirror, v.map mirror, ?_, List.length_map _, ?_⟩
    · rw [List.map_append]
      rfl
    · rw [← balanced_iff, balanced_mirror]
      exact hu

/-- **An enclosed text** is a balanced one in brackets. -/
theorem isEnclosed_iff {cs : List Char} :
    isEnclosed cs = true ↔ ∃ u, cs = '(' :: (u ++ [')']) ∧ balanced u = true := by
  constructor
  · intro h
    unfold isEnclosed at h
    split at h
    · rename_i cs
      obtain ⟨k, hk, hlen⟩ := (Option.any_eq_true _ _).1 h
      obtain ⟨u, v, rfl, rfl, hu⟩ := closing?_eq_some_iff.1 hk
      simp only [List.length_append, List.length_cons, beq_iff_eq] at hlen
      obtain rfl := List.length_eq_zero_iff.1 (by omega : v.length = 0)
      exact ⟨u, rfl, hu⟩
    · simp at h
  · rintro ⟨u, rfl, hu⟩
    have hk : closing? (u ++ [')']) = some u.length :=
      closing?_eq_some_iff.2 ⟨u, [], rfl, rfl, hu⟩
    simp [isEnclosed, hk]

end CurvePuzzle.Bracket
