import CurvePuzzle.Score
import Mathlib.Algebra.Ring.Nat
import Mathlib.Data.List.Forall2

/-!
# Scores as sums

A bonus is cut off at the largest score, and so is the score after every slot. As no bonus is
negative, to cut off once would do: the score is the sum of the bonuses, or the largest score where
that is less. Order and growth are then matters of a sum.

* `foldl_add_eq`: a sum that is cut off at every step is the whole sum, cut off once.
* `Word.total?` is the score in words of 32 bits, where an operation may overflow. `Word.total?_eq`:
  none does, and the word that comes out is the score.
* `total_is_clamped_sum`: the laws of the score, for all counts of hits.
* `total_is_exact`: a score that fits is the sum of `2 ^ hits - 1`, but for the largest one when a
  single slot earns it. The power is cut off before 1 is taken away: `largest_score_is_missed`.
-/

set_option autoImplicit false

namespace CurvePuzzle.Score

/-! ## Bonuses -/

@[simp] theorem bonus_zero : bonus 0 = 0 := rfl

/-- The power is cut off at the largest score, before 1 is taken away. -/
theorem bonus_eq_min (hits : Nat) : bonus hits = min maxScore (Nat.pow 2 hits) - 1 := by
  unfold bonus
  split
  · rename_i small
    have le : Nat.pow 2 hits ≤ Nat.pow 2 30 := Nat.pow_le_pow_right (by decide) (by omega)
    rw [Nat.min_eq_right (Nat.le_trans le (by decide))]
  · rename_i large
    have le : Nat.pow 2 31 ≤ Nat.pow 2 hits := Nat.pow_le_pow_right (by decide) (by omega)
    rw [Nat.min_eq_left (Nat.le_trans (by decide) le)]

theorem bonus_mono {hits hits' : Nat} (more : hits ≤ hits') : bonus hits ≤ bonus hits' := by
  have powers : Nat.pow 2 hits ≤ Nat.pow 2 hits' := Nat.pow_le_pow_right (by decide) more
  rw [bonus_eq_min, bonus_eq_min]
  omega

/-- What the slots with hits earn together. -/
def bonusSum (good : List Nat) : Nat :=
  ((good.filter fun hits => decide (0 < hits)).map bonus).sum

@[simp] theorem bonusSum_nil : bonusSum [] = 0 := rfl

/-- A slot without hits is left out, and would earn nothing. -/
@[simp] theorem bonusSum_cons (hits : Nat) (good : List Nat) :
    bonusSum (hits :: good) = bonus hits + bonusSum good := by
  unfold bonusSum
  by_cases positive : 0 < hits
  · simp [positive]
  · obtain rfl : hits = 0 := by omega
    simp

theorem bonusSum_perm {good good' : List Nat} (same : good.Perm good') :
    bonusSum good = bonusSum good' :=
  ((same.filter _).map bonus).sum_nat

/-- Slots with more hits, and further slots, never earn less. -/
theorem bonusSum_mono {good good' : List Nat} (more : List.SublistForall₂ (· ≤ ·) good good') :
    bonusSum good ≤ bonusSum good' := by
  induction more with
  | nil => simp
  | cons first _ ih =>
    simp only [bonusSum_cons]
    exact Nat.add_le_add (bonus_mono first) ih
  | cons_right _ ih =>
    simp only [bonusSum_cons]
    omega

/-! ## Cutting off once -/

/-- **Cut off at every step** is cut off once, for numbers that are not negative. -/
theorem foldl_add_eq (bonuses : List Nat) {score : Nat} (small : score ≤ maxScore) :
    bonuses.foldl add score = min maxScore (score + bonuses.sum) := by
  induction bonuses generalizing score with
  | nil => simp [small]
  | cons bonus bonuses ih =>
    have here : add score bonus ≤ maxScore := Nat.min_le_left _ _
    rw [List.foldl_cons, ih here, List.sum_cons]
    simp only [add]
    omega

theorem total_of_harmless {bad : List Nat} (harmless : ∀ hits ∈ bad, hits = 0)
    (good : List Nat) : total good bad = (min maxScore (bonusSum good) : Nat) := by
  have none : (bad.any fun hits => decide (0 < hits)) = false := by
    simpa using harmless
  unfold total
  rw [none, if_neg Bool.false_ne_true, foldl_add_eq _ (Nat.zero_le _), Nat.zero_add]
  rfl

theorem total_of_void {bad : List Nat} (void : ∃ hits ∈ bad, 0 < hits) (good : List Nat) :
    total good bad = -1 := by
  have some : (bad.any fun hits => decide (0 < hits)) = true := by
    simpa using void
  unfold total
  rw [some, if_pos rfl]
  rfl

/-- A round is void, or no bad dot is hit. -/
theorem void_or_harmless (bad : List Nat) :
    (∃ hits ∈ bad, 0 < hits) ∨ ∀ hits ∈ bad, hits = 0 := by
  by_cases void : ∃ hits ∈ bad, 0 < hits
  · exact .inl void
  · right
    intro hits mem
    by_contra positive
    exact void ⟨hits, mem, Nat.pos_of_ne_zero positive⟩

theorem total_eq_void_iff {good bad : List Nat} :
    total good bad = -1 ↔ ∃ hits ∈ bad, 0 < hits := by
  constructor
  · intro score
    rcases void_or_harmless bad with void | harmless
    · exact void
    · rw [total_of_harmless harmless] at score
      omega
  · intro void
    exact total_of_void void good

theorem total_perm {good good' bad bad' : List Nat} (goods : good.Perm good')
    (bads : bad.Perm bad') : total good' bad' = total good bad := by
  rcases void_or_harmless bad with void | harmless
  · have void' : ∃ hits ∈ bad', 0 < hits := by
      obtain ⟨hits, mem, positive⟩ := void
      exact ⟨hits, bads.mem_iff.1 mem, positive⟩
    rw [total_of_void void, total_of_void void']
  · have harmless' : ∀ hits ∈ bad', hits = 0 := by
      intro hits mem
      exact harmless hits (bads.mem_iff.2 mem)
    rw [total_of_harmless harmless, total_of_harmless harmless', bonusSum_perm goods]

/-- **Good hits** never lower the score. -/
theorem total_mono {good good' : List Nat} (more : List.SublistForall₂ (· ≤ ·) good good')
    (bad : List Nat) : total good bad ≤ total good' bad := by
  rcases void_or_harmless bad with void | harmless
  · exact Int.le_of_eq ((total_of_void void good).trans (total_of_void void good').symm)
  · have sums := bonusSum_mono more
    rw [total_of_harmless harmless, total_of_harmless harmless]
    omega

/-! ## Words -/

namespace Word

/-- The word for a number, if there is one: an operation overflows whose result has none. -/
def ofInt? (n : Int) : Option Int32 :=
  if Int32.minValue.toInt ≤ n ∧ n ≤ Int32.maxValue.toInt then some (Int32.ofInt n) else none

/-- The bonus for this many hits: the power is cut off where it has no word, the subtraction is
not. -/
def bonus? (hits : UInt32) : Option Int32 :=
  ofInt? ((Int32.ofIntClamp (Nat.pow 2 hits.toNat)).toInt - 1)

/-- The score after one more slot, cut off where it has no word. -/
def step? (score : Int32) (hits : UInt32) : Option Int32 :=
  (bonus? hits).map fun bonus => Int32.ofIntClamp (score.toInt + bonus.toInt)

/-- The score of a round, absent if an operation overflows. -/
def total? (good bad : List UInt32) : Option Int32 :=
  if bad.any fun hits => decide (0 < hits) then some (-1)
  else (good.filter fun hits => decide (0 < hits)).foldlM step? 0

theorem toInt_ofIntClamp (n : Nat) : (Int32.ofIntClamp n).toInt = (min maxScore n : Nat) := by
  have largest : Int32.maxValue.toInt = maxScore := by decide
  have smallest : Int32.minValue.toInt ≤ 0 := by decide
  by_cases fits : n ≤ maxScore
  · rw [Int32.toInt_ofIntClamp (by omega) (by omega), Nat.min_eq_right fits]
  · unfold Int32.ofIntClamp
    rw [dif_pos (by omega), dif_neg (by omega), largest, Nat.min_eq_left (by omega)]

theorem ofInt?_natCast {n : Nat} (fits : n ≤ maxScore) :
    ∃ w, ofInt? n = some w ∧ w.toInt = n := by
  have largest : Int32.maxValue.toInt = maxScore := by decide
  have smallest : Int32.minValue.toInt = -(maxScore : Int) - 1 := by decide
  refine ⟨Int32.ofInt n, if_pos (by omega), ?_⟩
  have size : maxScore = 2147483647 := by decide
  exact Int32.toInt_ofInt_of_le (by omega) (by omega)

/-- **No bonus overflows.** -/
theorem bonus?_eq (hits : UInt32) :
    ∃ w, bonus? hits = some w ∧ w.toInt = bonus hits.toNat := by
  have positive : 0 < Nat.pow 2 hits.toNat := Nat.pow_pos (by decide)
  have size : 0 < maxScore := by decide
  have small : bonus hits.toNat ≤ maxScore := by
    rw [bonus_eq_min]
    omega
  have value : (Int32.ofIntClamp (Nat.pow 2 hits.toNat)).toInt - 1 = bonus hits.toNat := by
    rw [toInt_ofIntClamp, bonus_eq_min]
    omega
  unfold bonus?
  rw [value]
  exact ofInt?_natCast small

/-- **No step overflows**, and it does what `add` does. -/
theorem step?_eq {score : Int32} {n : Nat} (h : score.toInt = n) (hits : UInt32) :
    ∃ w, step? score hits = some w ∧ w.toInt = add n (bonus hits.toNat) := by
  obtain ⟨bonus, found, value⟩ := bonus?_eq hits
  refine ⟨Int32.ofIntClamp (score.toInt + bonus.toInt), by rw [step?, found]; rfl, ?_⟩
  rw [h, value]
  exact toInt_ofIntClamp (n + Score.bonus hits.toNat)

theorem foldlM_step?_eq (slots : List UInt32) {score : Int32} {n : Nat} (h : score.toInt = n) :
    ∃ w, slots.foldlM step? score = some w ∧
      w.toInt = ((slots.map UInt32.toNat).map bonus).foldl add n := by
  induction slots generalizing score n with
  | nil => exact ⟨score, rfl, h⟩
  | cons hits slots ih =>
    obtain ⟨next, step, value⟩ := step?_eq h hits
    obtain ⟨w, rest, result⟩ := ih value
    refine ⟨w, ?_, result⟩
    rw [List.foldlM_cons, step]
    exact rest

/-- **The score in words.** No operation overflows, and the word is the score. -/
theorem total?_eq (good bad : List UInt32) :
    (total? good bad).map Int32.toInt =
      some (total (good.map UInt32.toNat) (bad.map UInt32.toNat)) := by
  have positive : (fun hits : UInt32 => decide (0 < hits)) =
      (fun hits : Nat => decide (0 < hits)) ∘ UInt32.toNat := by
    funext hits
    simp [UInt32.lt_iff_toNat_lt]
  have start : (0 : Int32).toInt = (0 : Nat) := rfl
  obtain ⟨w, found, value⟩ :=
    foldlM_step?_eq (good.filter fun hits => decide (0 < hits)) start
  unfold total? total
  rw [List.any_map, List.filter_map, ← positive]
  split
  · rfl
  · rw [found, Option.map_some, value]

end Word

/-! ## The laws of the score -/

/-- Counts of hits as they are kept, in words, taken as numbers. -/
def counts (slots : List UInt32) : List Nat := slots.map UInt32.toNat

theorem exists_positive_iff {bad : List UInt32} :
    (∃ hits ∈ counts bad, 0 < hits) ↔ ∃ hits ∈ bad, 0 < hits := by
  simp [counts, UInt32.lt_iff_toNat_lt]

theorem harmless_of_words {bad : List UInt32} (harmless : ∀ hits ∈ bad, hits = 0) :
    ∀ hits ∈ counts bad, hits = 0 := by
  intro hits mem
  obtain ⟨word, inside, rfl⟩ := List.mem_map.1 mem
  rw [harmless word inside]
  rfl

theorem more_of_words {good good' : List UInt32}
    (more : List.SublistForall₂ (· ≤ ·) good good') :
    List.SublistForall₂ (· ≤ ·) (counts good) (counts good') := by
  unfold counts
  rw [List.sublistForall₂_map_left_iff, List.sublistForall₂_map_right_iff]
  simpa only [UInt32.le_iff_toNat_le] using more

/-- **The score of a round**, for all counts of hits that a word can hold. No operation overflows.
The score is -1 exactly if a bad dot is hit; else it is the sum of the bonuses, cut off at the
largest score. The order of the slots does not matter, and without bad hits the score is never lower
when slots have more good hits, or there are more slots. -/
theorem total_is_clamped_sum (good bad : List UInt32) :
    (Word.total? good bad).map Int32.toInt = some (total (counts good) (counts bad)) ∧
      (total (counts good) (counts bad) = -1 ↔ ∃ hits ∈ bad, 0 < hits) ∧
      ((∀ hits ∈ bad, hits = 0) →
        0 ≤ total (counts good) (counts bad) ∧ total (counts good) (counts bad) ≤ maxScore ∧
          total (counts good) (counts bad) = min maxScore (bonusSum (counts good))) ∧
      (∀ good' bad', good.Perm good' → bad.Perm bad' →
        total (counts good') (counts bad') = total (counts good) (counts bad)) ∧
      ((∀ hits ∈ bad, hits = 0) → ∀ good', List.SublistForall₂ (· ≤ ·) good good' →
        total (counts good) (counts bad) ≤ total (counts good') (counts bad)) := by
  refine ⟨Word.total?_eq good bad, ?_, ?_, ?_, ?_⟩
  · rw [total_eq_void_iff, exists_positive_iff]
  · intro harmless
    rw [total_of_harmless (harmless_of_words harmless)]
    omega
  · intro good' bad' goods bads
    exact total_perm (goods.map _) (bads.map _)
  · intro _ good' more
    exact total_mono (more_of_words more) (counts bad)

/-- A slot with 40 hits, whose bonus is cut off, and one with 3 hits earn the largest score, as words
and as numbers, and in either order. With one hit more and a third slot they earn no less. -/
theorem crowded_slots_earn_the_largest_score :
    (∀ hits ∈ ([0, 0] : List UInt32), hits = 0) ∧
      (Word.total? [40, 3] [0, 0]).map Int32.toInt = some (maxScore : Int) ∧
      total (counts [40, 3]) (counts [0, 0]) = min maxScore (bonusSum (counts [40, 3])) ∧
      total (counts [3, 40]) (counts [0, 0]) = maxScore ∧
      List.SublistForall₂ (· ≤ ·) ([40, 3] : List UInt32) [7, 41, 3] ∧
      total (counts [40, 3]) (counts [0, 0]) ≤ total (counts [7, 41, 3]) (counts [0, 0]) := by
  have harmless : ∀ hits ∈ ([0, 0] : List UInt32), hits = 0 := by simp
  have largest : total (counts [40, 3]) (counts [0, 0]) = maxScore := by decide
  have more : List.SublistForall₂ (· ≤ ·) ([40, 3] : List UInt32) [7, 41, 3] :=
    .cons_right (.cons (by decide) (.cons (by decide) .nil))
  obtain ⟨words, -, sum, order, growth⟩ := total_is_clamped_sum [40, 3] [0, 0]
  refine ⟨harmless, ?_, (sum harmless).2.2, ?_, more, growth harmless _ more⟩
  · rw [words, largest]
  · rw [order [3, 40] [0, 0] (.swap 3 40 []) (.refl _), largest]

/-! ## Scores that fit -/

/-- What this many hits are worth when nothing is cut off. -/
def exactBonus (hits : Nat) : Nat := Nat.pow 2 hits - 1

/-- What all slots are worth when nothing is cut off. -/
def exactTotal (good : List Nat) : Nat := (good.map exactBonus).sum

@[simp] theorem exactTotal_nil : exactTotal [] = 0 := rfl

@[simp] theorem exactTotal_cons (hits : Nat) (good : List Nat) :
    exactTotal (hits :: good) = exactBonus hits + exactTotal good := by
  simp [exactTotal]

theorem exactBonus_top : exactBonus 31 = maxScore := rfl

/-- A bonus that fits is exact, but for the largest one, which is one too low. -/
theorem bonus_of_fits {hits : Nat} (fits : exactBonus hits ≤ maxScore) :
    bonus hits + (if hits = 31 then 1 else 0) = exactBonus hits := by
  have small : hits ≤ 31 := by
    by_contra large
    have le : Nat.pow 2 32 ≤ Nat.pow 2 hits := Nat.pow_le_pow_right (by decide) (by omega)
    have far : maxScore + 1 < Nat.pow 2 32 := by decide
    unfold exactBonus at fits
    omega
  rcases Nat.lt_or_eq_of_le small with below | rfl
  · rw [if_neg (by omega), bonus, if_pos below]
    rfl
  · rfl

theorem bonusSum_of_fits {good : List Nat} (fits : exactTotal good ≤ maxScore) :
    bonusSum good + good.count 31 = exactTotal good := by
  induction good with
  | nil => rfl
  | cons hits good ih =>
    rw [exactTotal_cons] at fits ⊢
    have rest := ih (by omega)
    have here := bonus_of_fits (show exactBonus hits ≤ maxScore by omega)
    rw [bonusSum_cons, List.count_cons]
    simp only [beq_iff_eq]
    omega

/-- Each slot with 31 hits is worth the largest score. -/
theorem count_top_mul_le (good : List Nat) : good.count 31 * maxScore ≤ exactTotal good := by
  induction good with
  | nil => simp
  | cons hits good ih =>
    rw [List.count_cons, exactTotal_cons]
    split
    · rename_i top
      rw [eq_of_beq top, exactBonus_top, Nat.add_mul, Nat.one_mul]
      omega
    · rw [Nat.add_zero]
      omega

/-- **A score that fits is exact**, unless a slot has 31 hits. Such a slot is worth the largest score
all by itself, and the score is one lower. -/
theorem total_is_exact {good bad : List Nat} (harmless : ∀ hits ∈ bad, hits = 0)
    (fits : exactTotal good ≤ maxScore) :
    (total good bad = exactTotal good ↔ 31 ∉ good) ∧
      (31 ∈ good → exactTotal good = maxScore ∧ total good bad = maxScore - 1) := by
  have sum := bonusSum_of_fits fits
  have tops := count_top_mul_le good
  have size : maxScore = 2147483647 := rfl
  have value : total good bad = bonusSum good := by
    rw [total_of_harmless harmless, Nat.min_eq_right (by omega)]
  rw [value]
  constructor
  · rw [← List.count_eq_zero]
    omega
  · intro top
    have some := List.count_pos_iff.2 top
    rw [size] at tops fits ⊢
    omega

/-- Three slots may earn the largest score together. -/
theorem three_slots_earn_the_largest_score :
    (∀ hits ∈ ([0] : List Nat), hits = 0) ∧ exactTotal [30, 30, 1] ≤ maxScore ∧
      31 ∉ [30, 30, 1] ∧ total [30, 30, 1] [0] = exactTotal [30, 30, 1] ∧
      exactTotal [30, 30, 1] = maxScore := by
  have harmless : ∀ hits ∈ ([0] : List Nat), hits = 0 := by simp
  have fits : exactTotal [30, 30, 1] ≤ maxScore := by decide
  have below : 31 ∉ [30, 30, 1] := by decide
  exact ⟨harmless, fits, below, (total_is_exact harmless fits).1.2 below, by decide⟩

/-- One slot does not: its score would fit, and is one lower. -/
theorem largest_score_is_missed :
    (∀ hits ∈ ([0] : List Nat), hits = 0) ∧ exactTotal [31] ≤ maxScore ∧
      total [31] [0] ≠ exactTotal [31] ∧ total [31] [0] = 2147483646 := by
  decide

end CurvePuzzle.Score
