import CurvePuzzle.Proofs.RunWindow

/-!
# Runs that grow

A run is made from points by sorting, and further points are inserted one at a time. Sorting goes by
the total order of floats, and insertion by a binary search with `≤`. The two orders differ on the two
zeros, so what both keep is the weaker one: the points lie by rising `x`.

* `partitionPoint_cut`: a row that a test partitions, cut at its partition point.
* `Run.isSorted_ofList`, `Run.ofList_perm`: a run made from points.
* `Run.InsertedBehind`, `Run.insertedBehind_insert`: the step, which puts a point behind all those
  whose `x` is not larger. `Run.Holds.insert`: it keeps the run sorted and adds just the one point.
* `Run.inserted_points_are_kept`: what is true of a run after any number of insertions.
-/

set_option autoImplicit false

namespace CurvePuzzle

namespace Binary64

theorem le_of_orderKey_le {v w : Float} (hv : v.isNaN = false) (hw : w.isNaN = false)
    (h : orderKey v ≤ orderKey w) : v ≤ w := by
  rw [← Bool.not_eq_true, isNaN_iff] at hv hw
  rw [le_iff]
  exact ⟨by omega, by omega, place_le_of_orderKey_le h⟩

end Binary64

/-! ## Cutting at the partition point -/

section Search

variable {β : Type} {test : β → Bool} {bs : Array β}

/-- **Cut at its partition point**, a row falls into the elements that pass and those that fail. -/
theorem partitionPoint_cut (h : Partitioned test bs) :
    (∀ b ∈ bs.toList.take (partitionPoint test bs), test b = true) ∧
      ∀ b ∈ bs.toList.drop (partitionPoint test bs), test b = false := by
  have place (i : Nat) (hi : i < bs.size) :
      test bs[i] = true ↔ i < partitionPoint test bs := by
    rw [← passesAt_iff h, passesAt_eq_true_iff]
    simp [hi]
  constructor
  · intro b hb
    obtain ⟨i, hi, rfl⟩ := List.mem_iff_getElem.1 hb
    simp only [List.length_take, Array.length_toList] at hi
    rw [List.getElem_take, Array.getElem_toList, place i (by omega)]
    omega
  · intro b hb
    obtain ⟨i, hi, rfl⟩ := List.mem_iff_getElem.1 hb
    simp only [List.length_drop, Array.length_toList] at hi
    rw [List.getElem_drop, Array.getElem_toList, ← Bool.not_eq_true, place _ (by omega)]
    omega

end Search

namespace Run

open Binary64

/-! ## Runs made from points -/

/-- Sorting loses no point and adds none. -/
theorem ofList_perm (ps : List (Point Float)) : (ofList ps).points.toList.Perm ps :=
  List.mergeSort_perm ps _

/-- **A run made from points is sorted**, if every `x` is a number or infinite. -/
theorem isSorted_ofList {ps : List (Point Float)} (h : ∀ p ∈ ps, p.x.isNaN = false) :
    (ofList ps).IsSorted := by
  have defined : ∀ p ∈ (ofList ps).points.toList, p.x.isNaN = false := by
    intro p hp
    exact h p ((ofList_perm ps).subset hp)
  have transitive (p q m : Point Float) (first : Scalar.precedes p.x q.x = true)
      (second : Scalar.precedes q.x m.x = true) : Scalar.precedes p.x m.x = true :=
    decide_eq_true (Int.le_trans (of_decide_eq_true first) (of_decide_eq_true second))
  have total (p q : Point Float) : (Scalar.precedes p.x q.x || Scalar.precedes q.x p.x) = true := by
    simp only [Scalar.precedes, Bool.or_eq_true, decide_eq_true_eq]
    omega
  have ordered : (ofList ps).points.toList.Pairwise fun p q => Scalar.precedes p.x q.x = true :=
    List.pairwise_mergeSort transitive total ps
  refine ⟨ordered.imp_of_mem ?_, defined⟩
  intro p q hp hq precedes
  exact le_of_orderKey_le (defined p hp) (defined q hq) (of_decide_eq_true precedes)

/-! ## One insertion -/

/-- The second run is the first with one more point, which stands behind all points whose `x` is not
larger and before all others. -/
def InsertedBehind (r : Run Float) (p : Point Float) (r' : Run Float) : Prop :=
  ∃ before after, r.points.toList = before ++ after ∧ r'.points.toList = before ++ p :: after ∧
    (∀ q ∈ before, q.x ≤ p.x) ∧ ∀ q ∈ after, p.x < q.x

/-- **What an insertion does** to a sorted run. -/
theorem insertedBehind_insert {r : Run Float} (sorted : r.IsSorted) {p : Point Float}
    (hp : p.x.isNaN = false) : r.InsertedBehind p (r.insert p) := by
  have partitioned : Partitioned (fun q : Point Float => decide (q.x ≤ p.x)) r.points := by
    refine sorted.rising.imp ?_
    intro q q' le within
    exact decide_eq_true (le_trans le (of_decide_eq_true within))
  obtain ⟨pass, fail⟩ := partitionPoint_cut partitioned
  let place := partitionPoint (fun q : Point Float => decide (q.x ≤ p.x)) r.points
  refine ⟨r.points.toList.take place, r.points.toList.drop place,
    (List.take_append_drop _ _).symm, ?_, ?_, ?_⟩
  · have rest : (r.points.toList.drop place).take (r.points.size - place) =
        r.points.toList.drop place := List.take_of_length_le (by simp)
    simp only [insert, Array.toList_append, Array.toList_extract, List.extract_eq_take_drop,
      List.drop_zero, Nat.sub_zero, List.append_assoc, List.singleton_append]
    exact congrArg (r.points.toList.take place ++ p :: ·) rest
  · intro q hq
    exact of_decide_eq_true (pass q hq)
  · intro q hq
    have beyond : ¬q.x ≤ p.x := of_decide_eq_false (fail q hq)
    by_contra within
    exact beyond ((not_lt_iff hp (sorted.defined q (List.mem_of_mem_drop hq))).1 within)

theorem InsertedBehind.perm {r r' : Run Float} {p : Point Float} (h : r.InsertedBehind p r') :
    r'.points.toList.Perm (p :: r.points.toList) := by
  obtain ⟨before, after, old, new, -, -⟩ := h
  rw [old, new]
  exact List.perm_middle

/-- **An insertion keeps a run sorted.** -/
theorem InsertedBehind.isSorted {r r' : Run Float} {p : Point Float} (h : r.InsertedBehind p r')
    (sorted : r.IsSorted) (hp : p.x.isNaN = false) : r'.IsSorted := by
  have perm := h.perm
  obtain ⟨before, after, old, new, low, high⟩ := h
  constructor
  · have rising := sorted.rising
    rw [old, List.pairwise_append] at rising
    obtain ⟨risingBefore, risingAfter, across⟩ := rising
    have behind (q : Point Float) (hq : q ∈ after) : p.x ≤ q.x := by
      have above := high q hq
      rw [lt_iff] at above
      rw [le_iff]
      omega
    rw [new, List.pairwise_append, List.pairwise_cons]
    refine ⟨risingBefore, ⟨behind, risingAfter⟩, ?_⟩
    intro q hq
    exact List.forall_mem_cons.2 ⟨low q hq, across q hq⟩
  · intro q hq
    rcases List.mem_cons.1 (perm.subset hq) with rfl | hq
    · exact hp
    · exact sorted.defined q hq

/-! ## Any number of insertions -/

/-- The run is sorted, and its points are the given ones, each as often as it is given. -/
structure Holds (r : Run Float) (ps : List (Point Float)) : Prop where
  sorted : r.IsSorted
  members : r.points.toList.Perm ps

theorem Holds.insert {r : Run Float} {ps : List (Point Float)} (h : r.Holds ps) {p : Point Float}
    (hp : p.x.isNaN = false) : (r.insert p).Holds (ps ++ [p]) := by
  have step := insertedBehind_insert h.sorted hp
  refine ⟨step.isSorted h.sorted hp, ?_⟩
  calc (r.insert p).points.toList.Perm (p :: r.points.toList) := step.perm
    _ |>.Perm (p :: ps) := h.members.cons p
    _ |>.Perm (ps ++ [p]) := (List.perm_append_singleton p ps).symm

theorem Holds.foldl_insert {r : Run Float} {ps qs : List (Point Float)} (h : r.Holds ps)
    (hqs : ∀ q ∈ qs, q.x.isNaN = false) : (qs.foldl Run.insert r).Holds (ps ++ qs) := by
  induction qs generalizing r ps with
  | nil => simpa using h
  | cons q qs ih =>
    obtain ⟨first, others⟩ := List.forall_mem_cons.1 hqs
    have rest := ih (h.insert first) others
    rwa [List.append_assoc] at rest

/-- An inverted window is empty. -/
theorem inWindow_eq_empty {r : Run Float} (sorted : r.IsSorted) {low high : Float}
    (hlow : low.isNaN = false) (inverted : high < low) : r.inWindow low high = #[] := by
  rw [← Array.toList_eq_nil_iff, inWindow_eq_filter sorted hlow, List.filter_eq_nil_iff]
  intro p _ within
  rw [Bool.and_eq_true, decide_eq_true_iff, decide_eq_true_iff, le_iff, le_iff] at within
  rw [lt_iff] at inverted
  omega

/-- **A run keeps the points it is given**, those it is made from and those that are inserted later,
with all their repetitions and by rising `x`. A point that is inserted next goes behind those of equal
`x`, and a window holds exactly the points between its ends, in their order. -/
theorem inserted_points_are_kept {ps qs : List (Point Float)} (hps : ∀ p ∈ ps, p.x.isNaN = false)
    (hqs : ∀ q ∈ qs, q.x.isNaN = false) :
    let r := qs.foldl Run.insert (ofList ps)
    (r.points.toList.Pairwise fun p q => p.x ≤ q.x) ∧ r.points.toList.Perm (ps ++ qs) ∧
      (∀ q : Point Float, q.x.isNaN = false → r.InsertedBehind q (r.insert q)) ∧
        ∀ low high : Float, low.isNaN = false → high.isNaN = false →
          (r.inWindow low high).toList =
              r.points.toList.filter (fun p => decide (low ≤ p.x) && decide (p.x ≤ high)) ∧
            (high < low → r.inWindow low high = #[]) := by
  intro r
  have made : (ofList ps).Holds ps := ⟨isSorted_ofList hps, ofList_perm ps⟩
  obtain ⟨sorted, members⟩ : r.Holds (ps ++ qs) := made.foldl_insert hqs
  refine ⟨sorted.rising, members, ?_, ?_⟩
  · intro q hq
    exact insertedBehind_insert sorted hq
  · intro low high hlow _
    exact ⟨inWindow_eq_filter sorted hlow high, inWindow_eq_empty sorted hlow⟩

/-- Points at infinity, at both zeros and at a half. A further zero goes behind both zeros, whatever its
sign. -/
theorem inserted_zero_is_kept :
    let ps : List (Point Float) := [⟨1.0 / 0.0, 1.0⟩, ⟨0.0, 2.0⟩]
    let qs : List (Point Float) := [⟨-0.0, 3.0⟩, ⟨0.5, 4.0⟩]
    let q : Point Float := ⟨-0.0, 5.0⟩
    let r := qs.foldl Run.insert (ofList ps)
    (∀ p ∈ ps, p.x.isNaN = false) ∧ (∀ q ∈ qs, q.x.isNaN = false) ∧ q.x.isNaN = false ∧
      (r.points.toList.Pairwise fun p q => p.x ≤ q.x) ∧ r.points.toList.Perm (ps ++ qs) ∧
        r.InsertedBehind q (r.insert q) ∧ r.inWindow 0.5 (-0.5) = #[] := by
  intro ps qs q r
  have hps : ∀ p ∈ ps, p.x.isNaN = false := by decide +kernel
  have hqs : ∀ q ∈ qs, q.x.isNaN = false := by decide +kernel
  have hq : q.x.isNaN = false := by decide +kernel
  obtain ⟨rising, members, insertion, window⟩ := inserted_points_are_kept hps hqs
  obtain ⟨-, empty⟩ := window 0.5 (-0.5) (by decide +kernel) (by decide +kernel)
  exact ⟨hps, hqs, hq, rising, members, insertion q hq, empty (by decide +kernel)⟩

end Run

end CurvePuzzle
