/-!
# Loops that may not end

A loop is a step that gives the next state, or none when the loop is over. `Loop.run?` repeats it
for at most a given number of rounds.

* `run?_mono`: more rounds keep a finished answer, so the number of rounds is no part of the answer.
* `step_of_run?`: the loop is over at the state that is answered.
* `run?_induction`: what holds at the start and is kept by every step holds at the end.
* `run?_map`: two loops whose steps correspond take the same number of rounds to states that do.
* `exists_run?`, `run?_eq_none`: a loop whose steps lower a measure ends, and one that can always
  go on does not.
-/

set_option autoImplicit false

namespace CurvePuzzle.Loop

variable {σ : Type}

/-- The state at which the loop is over, if that happens in fewer than `rounds` steps. -/
def run? (step : σ → Option σ) : Nat → σ → Option σ
  | 0, _ => none
  | rounds + 1, s =>
    match step s with
    | some t => run? step rounds t
    | none => some s

theorem run?_mono {step : σ → Option σ} {m n : Nat} {s t : σ} (h : run? step m s = some t)
    (le : m ≤ n) : run? step n s = some t := by
  induction m generalizing n s with
  | zero => simp [run?] at h
  | succ m ih =>
    obtain ⟨n, rfl⟩ : ∃ k, n = k + 1 := ⟨n - 1, by omega⟩
    unfold run? at h ⊢
    split at h
    · exact ih h (by omega)
    · exact h

theorem run?_induction {step : σ → Option σ} {P : σ → Prop}
    (keep : ∀ s t, P s → step s = some t → P t) {n : Nat} {s t : σ}
    (h : run? step n s = some t) (start : P s) : P t := by
  induction n generalizing s with
  | zero => simp [run?] at h
  | succ n ih =>
    unfold run? at h
    split at h
    · rename_i u hu
      exact ih h (keep s u start hu)
    · obtain rfl := Option.some.inj h
      exact start

/-- Loops whose steps correspond end after the same number of rounds, or both do not. -/
theorem run?_map {τ : Type} {step : σ → Option σ} {step' : τ → Option τ} {φ : σ → τ}
    (corresponds : ∀ s, step' (φ s) = (step s).map φ) (n : Nat) (s : σ) :
    run? step' n (φ s) = (run? step n s).map φ := by
  induction n generalizing s with
  | zero => rfl
  | succ n ih =>
    rw [run?, run?, corresponds]
    cases step s with
    | none => rfl
    | some t => exact ih t

theorem step_of_run? {step : σ → Option σ} {n : Nat} {s t : σ} (h : run? step n s = some t) :
    step t = none := by
  induction n generalizing s with
  | zero => simp [run?] at h
  | succ n ih =>
    unfold run? at h
    split at h
    · exact ih h
    · rename_i stopped
      obtain rfl := Option.some.inj h
      exact stopped

/-- **A loop ends** when each of its steps lowers a measure, as long as it keeps what that needs. -/
theorem exists_run? {step : σ → Option σ} {P : σ → Prop} (measure : σ → Nat)
    (keep : ∀ s t, P s → step s = some t → P t ∧ measure t < measure s) {n : Nat} {s : σ}
    (start : P s) (enough : measure s < n) : ∃ t, run? step n s = some t := by
  induction n generalizing s with
  | zero => omega
  | succ n ih =>
    unfold run?
    split
    · rename_i t next
      obtain ⟨kept, less⟩ := keep s t start next
      exact ih kept (by omega)
    · exact ⟨s, rfl⟩

/-- A loop that can always go on never ends. -/
theorem run?_eq_none {step : σ → Option σ} {P : σ → Prop}
    (keep : ∀ s, P s → ∃ t, step s = some t ∧ P t) (n : Nat) {s : σ} (start : P s) :
    run? step n s = none := by
  induction n generalizing s with
  | zero => rfl
  | succ n ih =>
    obtain ⟨t, next, kept⟩ := keep s start
    rw [run?, next]
    exact ih kept

end CurvePuzzle.Loop
