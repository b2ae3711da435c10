import CurvePuzzle.Proofs.BalancedPieces
import CurvePuzzle.Proofs.Slices

/-!
# Where operators stand

A scan reports operators with their positions, and a text is cut there. Whether a sign is an
operator depends on what was read before it, and a piece of a cut is read again from its own start.

* `Scan.pairwise_positions`, `Scan.exists_cut_of_mem_positions`: positions rise, and each holds its
  operator.
* `Scan.positions_eq_filter`: to ask for fewer operators is to leave the others out.
* `Scan.eq_zero_of_mem_positions`: of a text in which nothing is reported behind an operator, a scan
  of its own reports at most the first character.
* `scan_and_split_lose_nothing`: the positions and the cut of any text.
-/

set_option autoImplicit false

namespace CurvePuzzle

namespace Scan

/-! ## Positions -/

/-- A reported operator stands behind a part of the text that fills the bytes before it. -/
theorem exists_cut_of_mem_positions {ops : List Char} {s : Scan} {offset : Nat} {cs : List Char}
    {m : Nat × Char} (h : m ∈ s.positions ops offset cs) :
    ∃ before after, cs = before ++ m.2 :: after ∧ offset + byteLength before = m.1 := by
  induction cs generalizing s offset with
  | nil => cases h
  | cons c cs ih =>
    have further (later : m ∈ (s.next c).positions ops (offset + c.utf8Size) cs) :
        ∃ before after, c :: cs = before ++ m.2 :: after ∧ offset + byteLength before = m.1 := by
      obtain ⟨before, after, text, place⟩ := ih later
      refine ⟨c :: before, after, by rw [text, List.cons_append], ?_⟩
      rw [byteLength_cons]
      omega
    rw [positions_cons] at h
    split at h
    · rcases List.mem_cons.1 h with rfl | later
      · exact ⟨[], cs, rfl, rfl⟩
      · exact further later
    · exact further h

/-- **Positions rise.** -/
theorem pairwise_positions (ops : List Char) (s : Scan) (offset : Nat) (cs : List Char) :
    (s.positions ops offset cs).Pairwise fun m n => m.1 < n.1 := by
  induction cs generalizing s offset with
  | nil => exact .nil
  | cons c cs ih =>
    have rest := ih (s.next c) (offset + c.utf8Size)
    rw [positions_cons]
    split
    · refine List.pairwise_cons.2 ⟨?_, rest⟩
      intro m later
      obtain ⟨before, -, -, place⟩ := exists_cut_of_mem_positions later
      have size := c.utf8Size_pos
      simp only
      omega
    · exact rest

theorem isOperator_of_mem_positions {ops : List Char} {s : Scan} {offset : Nat} {cs : List Char}
    {m : Nat × Char} (h : m ∈ s.positions ops offset cs) :
    isOperator m.2 = true ∧ m.2 ∈ ops := by
  have mem : m.2 ∈ (s.positions ops offset cs).map Prod.snd := List.mem_map_of_mem h
  rw [map_snd_positions, List.mem_filter] at mem
  exact ⟨isOperator_of_mem_reported mem.1, by simpa using mem.2⟩

/-- **To ask for fewer operators** is to leave the others out. -/
theorem positions_eq_filter (ops : List Char) (s : Scan) (offset : Nat) (cs : List Char) :
    s.positions ops offset cs =
      (s.positions operatorChars offset cs).filter fun m => ops.contains m.2 := by
  induction cs generalizing s offset with
  | nil => rfl
  | cons c cs ih =>
    rw [positions_cons, positions_cons, ih]
    by_cases reported : s.reports c = true
    · have operator : operatorChars.contains c = true := by
        simp only [reports, Bool.and_eq_true] at reported
        exact reported.1.2
      rw [reported, operator, Bool.true_and, Bool.true_and, if_pos rfl, List.filter_cons]
    · rw [Bool.eq_false_iff.2 reported]
      rfl

/-! ## Pieces read again -/

theorem positions_eq_nil {ops : List Char} {s : Scan} {cs : List Char}
    (quiet : ∀ c ∈ s.reported cs, c ∉ ops) (offset : Nat) : s.positions ops offset cs = [] := by
  have none : (s.reported cs).filter ops.contains = [] := by
    simpa using quiet
  rw [← map_snd_positions ops s offset, List.map_eq_nil_iff] at none
  exact none

/-- **Read from its own start**, a text can only report its first character more than behind an
operator: a sign there is no longer glued. -/
theorem eq_zero_of_mem_positions {ops cs : List Char} (quiet : ∀ c ∈ opened.reported cs, c ∉ ops)
    {m : Nat × Char} (h : m ∈ operatorPositions ops cs) : m.1 = 0 := by
  cases cs with
  | nil => cases h
  | cons c cs =>
    have rest : (opened.next c).positions ops (0 + c.utf8Size) cs = [] := by
      refine positions_eq_nil (fun d hd => ?_) _
      exact quiet d (reported_subset_cons opened c cs hd)
    -- what is known behind the first character does not depend on whether it is the first
    have same : start.next c = opened.next c := rfl
    rw [operatorPositions, positions_cons, same, rest] at h
    split at h
    · rw [List.mem_singleton.1 h]
    · cases h

/-- The pieces of a cut report no operator that was asked for, but for a sign at their start. -/
theorem eq_zero_of_mem_piece {ops cs piece : List Char}
    (hp : piece ∈ (start.split ops cs).1 :: (start.split ops cs).2.map Prod.snd)
    {m : Nat × Char} (h : m ∈ operatorPositions ops piece) : m.1 = 0 := by
  rcases List.mem_cons.1 hp with rfl | hp
  · rw [operatorPositions, positions_eq_nil (quiet_split_head ops start cs)] at h
    cases h
  · obtain ⟨n, hn, rfl⟩ := List.mem_map.1 hp
    exact eq_zero_of_mem_positions (quiet_of_mem_split hn) h

end Scan

/-! ## Scan and cut -/

/-- **Scanning and cutting lose nothing.** The operators among `ops` that a scan of any text reports
stand at rising positions, each at its own, and they are those of the scan for all operators that
are among `ops`. The text can be cut there: the pieces and the operators between them are the text,
and balanced if the text is. A piece that is scanned again for the same operators reports at most a
sign at its start. -/
theorem scan_and_split_lose_nothing (ops cs : List Char) :
    (operatorPositions ops cs).Pairwise (fun m n => m.1 < n.1) ∧
      (∀ m ∈ operatorPositions ops cs, isOperator m.2 = true ∧ m.2 ∈ ops ∧
        ∃ before after, cutAt m.1 cs = .ok (before, m.2 :: after)) ∧
      operatorPositions ops cs =
        (operatorPositions operatorChars cs).filter (fun m => ops.contains m.2) ∧
      ∃ head tail, splitAtPositions cs (operatorPositions ops cs) = .ok (head, tail) ∧
        splitAtOperators ops cs = (head, tail) ∧
        tail.map Prod.fst = (operatorPositions ops cs).map Prod.snd ∧
        head ++ Scan.join tail = cs ∧
        (Bracket.balanced cs = true →
          Bracket.balanced head = true ∧ ∀ m ∈ tail, Bracket.balanced m.2 = true) ∧
        ∀ piece ∈ head :: tail.map Prod.snd, ∀ m ∈ operatorPositions ops piece, m.1 = 0 := by
  refine ⟨Scan.pairwise_positions ops .start 0 cs, ?_, Scan.positions_eq_filter ops .start 0 cs,
    (splitAtOperators ops cs).1, (splitAtOperators ops cs).2, splitAtPositions_eq ops cs, rfl, ?_,
    splitAtOperators_join ops cs, balanced_splitAtOperators ops, ?_⟩
  · intro m hm
    obtain ⟨operator, asked⟩ := Scan.isOperator_of_mem_positions hm
    obtain ⟨before, after, text, place⟩ := Scan.exists_cut_of_mem_positions hm
    rw [Nat.zero_add] at place
    exact ⟨operator, asked, before, after, cutAt_eq_ok_iff.2 ⟨text, place⟩⟩
  · rw [splitAtOperators_operators, operatorPositions, Scan.map_snd_positions]
    rfl
  · intro piece hp m hm
    exact Scan.eq_zero_of_mem_piece hp hm

/-- The text `é--(x-1)+2` is cut at its first and its last sign. The second sign is glued to the
group, and is an operator of the piece that it starts. -/
theorem glued_sign_starts_a_piece :
    Bracket.balanced ['é', '-', '-', '(', 'x', '-', '1', ')', '+', '2'] = true ∧
      operatorPositions ['+', '-'] ['é', '-', '-', '(', 'x', '-', '1', ')', '+', '2'] =
        [(2, '-'), (9, '+')] ∧
      splitAtOperators ['+', '-'] ['é', '-', '-', '(', 'x', '-', '1', ')', '+', '2'] =
        (['é'], [('-', ['-', '(', 'x', '-', '1', ')']), ('+', ['2'])]) ∧
      Bracket.balanced ['-', '(', 'x', '-', '1', ')'] = true ∧
      operatorPositions ['+', '-'] ['-', '(', 'x', '-', '1', ')'] = [(0, '-')] ∧
      ∀ m ∈ operatorPositions ['+', '-'] ['-', '(', 'x', '-', '1', ')'], m.1 = 0 := by
  have balance : Bracket.balanced ['é', '-', '-', '(', 'x', '-', '1', ')', '+', '2'] = true := rfl
  obtain ⟨-, -, -, head, tail, -, cut, -, -, pieces, again⟩ :=
    scan_and_split_lose_nothing ['+', '-'] ['é', '-', '-', '(', 'x', '-', '1', ')', '+', '2']
  have shape : splitAtOperators ['+', '-'] ['é', '-', '-', '(', 'x', '-', '1', ')', '+', '2'] =
      (['é'], [('-', ['-', '(', 'x', '-', '1', ')']), ('+', ['2'])]) := rfl
  obtain ⟨rfl, rfl⟩ := Prod.mk.inj (shape.symm.trans cut)
  refine ⟨balance, rfl, shape, ?_, rfl, ?_⟩
  · exact (pieces balance).2 ('-', ['-', '(', 'x', '-', '1', ')']) (by simp)
  · exact again ['-', '(', 'x', '-', '1', ')'] (by simp)

end CurvePuzzle
