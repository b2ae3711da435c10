import CurvePuzzle.Curve.Run
import CurvePuzzle.Proofs.FloatSpacing

/-!
# The points of a run in a window

A window is cut out of a run by two searches that halve their range. They find the places where the
points of the window begin and end if the run is sorted.

* `Partitioned`: in a row, all that pass a test come before all that fail.
* `narrow_spec`: halving keeps the end of the passing part in range; `passesAt_iff`: so
  `partitionPoint` is that end.
* `filter_eq_take_drop`: filtering by a test that an interval of places passes is cutting it out.
* `Run.IsSorted`: the points lie by rising `x`. `Run.inWindow_eq_filter`: then the window holds
  exactly the points between its ends, in their order.
-/

set_option autoImplicit false

namespace CurvePuzzle

/-! ## The end of the part that passes -/

section Search

variable {β : Type} {test : β → Bool} {bs : Array β}

/-- All elements that pass the test come before all that fail. -/
def Partitioned (test : β → Bool) (bs : Array β) : Prop :=
  bs.toList.Pairwise fun a b => test b = true → test a = true

theorem passesAt_eq_true_iff {i : Nat} :
    passesAt test bs i = true ↔ ∃ h : i < bs.size, test bs[i] = true := by
  unfold passesAt
  by_cases h : i < bs.size
  · simp [h]
  · simp [h]

theorem Partitioned.passesAt_mono (h : Partitioned test bs) {i j : Nat} (le : i ≤ j)
    (pass : passesAt test bs j = true) : passesAt test bs i = true := by
  rw [passesAt_eq_true_iff] at pass ⊢
  obtain ⟨hj, pass⟩ := pass
  refine ⟨by omega, ?_⟩
  rcases Nat.eq_or_lt_of_le le with rfl | lt
  · exact pass
  · have ordered := List.pairwise_iff_getElem.1 h i j (by simp; omega) (by simpa using hj) lt
    simp only [Array.getElem_toList] at ordered
    exact ordered pass

/-- **Halving the range keeps the end of the passing part in it**: what is before the range passes,
and what is behind it fails. At most one place is left open. -/
theorem narrow_spec (h : Partitioned test bs) {base size : Nat}
    (low : ∀ i < base, passesAt test bs i = true)
    (high : ∀ i, base + size ≤ i → passesAt test bs i = false) :
    (∀ i < narrow test bs base size, passesAt test bs i = true) ∧
      ∀ i, narrow test bs base size < i → passesAt test bs i = false := by
  induction size using Nat.strong_induction_on generalizing base with
  | _ size ih =>
    rw [narrow]
    split
    · rename_i large
      have shorter : size - size / 2 < size := by omega
      simp only
      split
      · rename_i pass
        refine ih _ shorter ?_ ?_
        · intro i hi
          exact h.passesAt_mono (Nat.le_of_lt hi) pass
        · intro i hi
          exact high i (by omega)
      · rename_i fail
        refine ih _ shorter low ?_
        intro i hi
        by_contra pass
        exact fail (h.passesAt_mono (by omega) (Bool.eq_true_of_not_eq_false pass))
    · refine ⟨low, ?_⟩
      intro i hi
      exact high i (by omega)

/-- **The partition point** is the end of the passing part. -/
theorem passesAt_iff (h : Partitioned test bs) (i : Nat) :
    passesAt test bs i = true ↔ i < partitionPoint test bs := by
  have beyond : ∀ i, 0 + bs.size ≤ i → passesAt test bs i = false := by
    intro i hi
    rw [← Bool.not_eq_true, passesAt_eq_true_iff]
    rintro ⟨small, -⟩
    omega
  obtain ⟨before, behind⟩ := narrow_spec h (fun i hi => absurd hi (Nat.not_lt_zero i)) beyond
  unfold partitionPoint
  simp only
  constructor
  · intro pass
    have le : i ≤ narrow test bs 0 bs.size := by
      by_contra lt
      rw [behind i (by omega)] at pass
      cases pass
    split
    · omega
    · rename_i fail
      have ne : i ≠ narrow test bs 0 bs.size := by
        rintro rfl
        exact fail pass
      omega
  · intro lt
    split at lt
    · rename_i pass
      exact h.passesAt_mono (by omega) pass
    · exact before i lt

end Search

/-! ## Cutting out -/

/-- A test that the places of an interval pass, and no others, filters out the interval. -/
theorem filter_eq_take_drop {β : Type} {test : β → Bool} {l : List β} {first last : Nat}
    (h : ∀ i (hi : i < l.length), test l[i] = true ↔ first ≤ i ∧ i < last) :
    l.filter test = (l.drop first).take (last - first) := by
  induction l generalizing first last with
  | nil => simp
  | cons b l ih =>
    have rest : l.filter test = (l.drop (first - 1)).take (last - 1 - (first - 1)) := by
      refine ih fun i hi => ?_
      have place := h (i + 1) (by simpa using hi)
      simp only [List.getElem_cons_succ] at place
      rw [place]
      omega
    have here := h 0 (by simp)
    simp only [List.getElem_cons_zero] at here
    cases first with
    | zero =>
      cases last with
      | zero =>
        have fail : ¬test b = true := by simp [here]
        rw [List.filter_cons_of_neg fail, rest]
        simp
      | succ last =>
        have pass : test b = true := by simp [here]
        rw [List.filter_cons_of_pos pass, rest]
        simp
    | succ first =>
      have fail : ¬test b = true := by simp [here]
      have width : last - 1 - first = last - (first + 1) := by omega
      rw [List.filter_cons_of_neg fail, rest, List.drop_succ_cons]
      simp only [Nat.add_sub_cancel, width]

/-- Between the ends of two passing parts lie the elements that pass the second test only. -/
theorem extract_eq_filter {β : Type} {below within : β → Bool} {bs : Array β}
    (hb : Partitioned below bs) (hw : Partitioned within bs) :
    let first := partitionPoint below bs
    let last := partitionPoint within bs
    (bs.extract first (max first last)).toList =
      bs.toList.filter fun b => !below b && within b := by
  intro first last
  have place (i : Nat) (hi : i < bs.toList.length) :
      (!below bs.toList[i] && within bs.toList[i]) = true ↔ first ≤ i ∧ i < max first last := by
    have size : i < bs.size := by simpa using hi
    have left := passesAt_iff hb i
    have right := passesAt_iff hw i
    rw [passesAt_eq_true_iff] at left right
    simp only [size, exists_true_left] at left right
    simp only [Array.getElem_toList, Bool.and_eq_true, Bool.not_eq_true', ← Bool.not_eq_true, left,
      right]
    omega
  rw [Array.toList_extract, List.extract_eq_take_drop, filter_eq_take_drop place]

/-! ## Runs -/

namespace Run

open Binary64

/-- The points of the run lie by rising `x`, which is a number or infinite. -/
structure IsSorted (r : Run Float) : Prop where
  rising : r.points.toList.Pairwise fun p q => p.x ≤ q.x
  defined : ∀ p ∈ r.points.toList, p.x.isNaN = false

theorem not_lt_iff {v w : Float} (hv : v.isNaN = false) (hw : w.isNaN = false) :
    ¬v < w ↔ w ≤ v := by
  rw [← Bool.not_eq_true, isNaN_iff] at hv hw
  rw [lt_iff, le_iff]
  omega

theorem lt_of_le_of_lt {u v w : Float} (h : u ≤ v) (h' : v < w) : u < w := by
  rw [le_iff] at h
  rw [lt_iff] at h' ⊢
  omega

/-- **The window of a sorted run** holds the points between its ends, in their order, and no
others; it is empty when the ends are the wrong way round. -/
theorem inWindow_eq_filter {r : Run Float} (sorted : r.IsSorted) {low : Float}
    (hlow : low.isNaN = false) (high : Float) :
    (r.inWindow low high).toList =
      r.points.toList.filter fun p => decide (low ≤ p.x) && decide (p.x ≤ high) := by
  have below : Partitioned (fun p : Point Float => decide (p.x < low)) r.points := by
    refine sorted.rising.imp ?_
    intro p q le lt
    exact decide_eq_true (lt_of_le_of_lt le (of_decide_eq_true lt))
  have within : Partitioned (fun p : Point Float => decide (p.x ≤ high)) r.points := by
    refine sorted.rising.imp ?_
    intro p q le le'
    exact decide_eq_true (le_trans le (of_decide_eq_true le'))
  have cut : (r.inWindow low high).toList =
      r.points.toList.filter fun p => !decide (p.x < low) && decide (p.x ≤ high) :=
    extract_eq_filter below within
  rw [cut]
  refine List.filter_congr ?_
  intro p hp
  have entry : (!decide (p.x < low)) = decide (low ≤ p.x) := by
    rw [← decide_not, decide_eq_decide]
    exact not_lt_iff (sorted.defined p hp) hlow
  rw [entry]

end Run

end CurvePuzzle
