import CurvePuzzle.Proofs.Acceptance

/-!
# Brackets and characters of what is read

The reader checks the characters and the brackets of the whole text only. What it takes from the
text to be read by itself inherits both, however the text was cut.

* `Scan.balanced_split`: a balanced text is cut at operators outside brackets, so that all pieces
  are balanced.
* `Shape.balanced_of_mem_pieces`: the pieces of a balanced text are balanced, whatever its shape.
* `Reading.isAscii_of_accepted`: a text that passes the checks consists of single bytes.
* `Reading.balanced_of_mem_visited`: all texts that are looked at are balanced.
-/

set_option autoImplicit false

namespace CurvePuzzle

/-! ## Cuts at operators -/

namespace Scan

/-- The scan counts the brackets, as long as none is closed that was never opened. -/
theorem depthAfter?_next {s : Scan} {c : Char} (closes : c = ')' → s.depth ≠ 0) (u : List Char) :
    Bracket.depthAfter? s.depth (c :: u) = Bracket.depthAfter? (s.next c).depth u := by
  by_cases ho : c = '('
  · subst ho
    rfl
  · by_cases hc : c = ')'
    · subst hc
      obtain ⟨d, hd⟩ := Nat.exists_eq_succ_of_ne_zero (closes rfl)
      simp [next, hd]
    · rw [Bracket.depthAfter?_other ho hc]
      by_cases outside : s.depth = 0
      · simp [next, ho, hc, outside]
      · simp [next, ho, hc, outside]

/-- **No cut falls within brackets.** -/
theorem balanced_split (ops : List Char) {s : Scan} {cs : List Char}
    (h : Bracket.depthAfter? s.depth cs = some 0) :
    Bracket.depthAfter? s.depth (s.split ops cs).1 = some 0 ∧
      ∀ m ∈ (s.split ops cs).2, Bracket.balanced m.2 = true := by
  induction cs generalizing s with
  | nil => exact ⟨h, fun m hm => absurd hm List.not_mem_nil⟩
  | cons c cs ih =>
    have closes : c = ')' → s.depth ≠ 0 := by
      rintro rfl none
      rw [none] at h
      cases h
    rw [depthAfter?_next closes] at h
    obtain ⟨head, tail⟩ := ih h
    rw [split_cons]
    split
    · rename_i cut
      simp only [reports, Bool.and_eq_true, beq_iff_eq] at cut
      -- the cut is made at depth zero: the piece before it ends here, and the next one starts
      have outside : (s.next c).depth = 0 := by
        rw [next_eq_opened (by simp [reports, cut])]
        rfl
      rw [outside] at head
      refine ⟨by rw [cut.1.1.1, Bracket.depthAfter?_nil], ?_⟩
      intro m hm
      rcases List.mem_cons.1 hm with rfl | hm
      · exact Bracket.balanced_iff.2 head
      · exact tail m hm
    · exact ⟨by rw [depthAfter?_next closes]; exact head, tail⟩

theorem balanced_join {tail : List (Char × List Char)}
    (h : ∀ m ∈ tail, isOperator m.1 = true ∧ Bracket.balanced m.2 = true) :
    Bracket.balanced (join tail) = true := by
  induction tail with
  | nil => rfl
  | cons m tail ih =>
    obtain ⟨⟨op, piece⟩, rest⟩ := List.forall_mem_cons.1 h
    have plain : Bracket.balanced [m.1] = true := by
      refine Bracket.balanced_of_plain fun c hc => ?_
      rw [List.mem_singleton.1 hc]
      constructor <;> intro bracket <;> rw [bracket] at op <;> cases op
    exact Bracket.balanced_append (Bracket.balanced_append plain piece) (ih rest)

end Scan

theorem balanced_splitAtOperators (ops : List Char) {cs : List Char}
    (h : Bracket.balanced cs = true) :
    Bracket.balanced (splitAtOperators ops cs).1 = true ∧
      ∀ m ∈ (splitAtOperators ops cs).2, Bracket.balanced m.2 = true := by
  obtain ⟨head, tail⟩ := Scan.balanced_split ops (s := .start) (Bracket.balanced_iff.1 h)
  exact ⟨Bracket.balanced_iff.2 head, tail⟩

/-! ## Pieces of a shape -/

namespace Shape

variable {cs u : List Char}

theorem balanced_of_mem_members (h : Bracket.balanced cs = true) {ops : List Char}
    {polarity? : Char → Option Polarity}
    (hu : u ∈ (members polarity? (splitAtOperators ops cs).2).map Prod.snd) :
    Bracket.balanced u = true := by
  obtain ⟨m, hm, rfl⟩ := List.mem_map.1 hu
  obtain ⟨c, hc⟩ := exists_mem_of_mem_members hm
  exact (balanced_splitAtOperators ops h).2 _ hc

theorem balanced_of_mem_terms (h : Bracket.balanced cs = true)
    (hu : u ∈ (terms cs).map Prod.snd) : Bracket.balanced u = true := by
  simp only [terms] at hu
  split at hu
  · exact balanced_of_mem_members h hu
  · rcases List.mem_cons.1 hu with rfl | hu
    · exact (balanced_splitAtOperators _ h).1
    · exact balanced_of_mem_members h hu

theorem balanced_of_mem_factors (h : Bracket.balanced cs = true)
    (hu : u ∈ (factors cs).map Prod.snd) : Bracket.balanced u = true := by
  simp only [factors] at hu
  rcases List.mem_cons.1 hu with rfl | hu
  · exact (balanced_splitAtOperators _ h).1
  · exact balanced_of_mem_members h hu

theorem balanced_exponent (h : Bracket.balanced cs = true)
    (cut : (splitAtOperators ['^'] cs).2 ≠ []) :
    Bracket.balanced (cs.drop ((splitAtOperators ['^'] cs).1.length + 1)) = true := by
  obtain ⟨base, first, tail, e, text⟩ := exists_power_cut cut
  have pieces := (balanced_splitAtOperators ['^'] h).2
  have marks : ∀ m ∈ (splitAtOperators ['^'] cs).2, isOperator m.1 = true := by
    intro m hm
    rw [List.mem_singleton.1 (Scan.mem_ops_of_mem_split hm)]
    rfl
  rw [e, List.forall_mem_cons] at pieces marks
  rw [e, text, drop_mark]
  refine Bracket.balanced_append pieces.1 (Scan.balanced_join fun m hm => ?_)
  exact ⟨marks.2 m hm, pieces.2 m hm⟩

theorem balanced_of_mem_ofOperators (h : Bracket.balanced cs = true)
    (hu : u ∈ (ofOperators cs).pieces) : Bracket.balanced u = true := by
  simp only [ofOperators] at hu
  split at hu
  · exact balanced_of_mem_terms h hu
  rename_i noSum
  split at hu
  · exact balanced_of_mem_factors h hu
  rename_i noProduct
  split at hu
  · cases hu
  · rename_i some
    have caret := caret_mem_joiningOperators (by simpa using some) noSum noProduct
    have cut := splitAtOperators_tail_ne_nil caret (List.mem_singleton.2 rfl)
    simp only [pieces, List.mem_cons, List.not_mem_nil, or_false] at hu
    rcases hu with rfl | rfl
    · exact (balanced_splitAtOperators _ h).1
    · exact balanced_exponent h cut

/-- **The pieces of a balanced text are balanced**, whatever its shape. -/
theorem balanced_of_mem_pieces (h : Bracket.balanced cs = true)
    (hu : u ∈ (ofText cs).pieces) : Bracket.balanced u = true := by
  unfold ofText at hu
  split at hu
  · cases hu
  split at hu
  · rename_i enclosed
    obtain ⟨v, rfl, hv⟩ := Bracket.isEnclosed_iff.1 enclosed
    rw [List.mem_singleton.1 hu]
    simpa using hv
  split at hu
  · cases hu
  split at hu
  · split at hu <;> cases hu
  split at hu
  · rename_i p rest found
    obtain ⟨-, group⟩ := signedGroup?_eq_some_iff.1 found
    obtain ⟨v, rfl, hv⟩ := Bracket.isEnclosed_iff.1 group
    rw [List.mem_singleton.1 hu]
    exact Bracket.balanced_enclose hv
  split at hu
  · rename_i f argument found
    rw [List.mem_singleton.1 hu]
    exact (call?_eq_some_iff.1 found).2
  · exact balanced_of_mem_ofOperators h hu

end Shape

/-! ## Accepted texts -/

namespace Reading

/-- Every character of a text is left when a word is struck out, or belongs to the word. -/
theorem mem_strike {word : List Char} (ne : word ≠ []) {c : Char} {cs : List Char} (skip : Nat)
    (skipped : ∀ d ∈ cs.take skip, d ∈ word) (h : c ∈ cs) :
    c ∈ strike word skip cs ∨ c ∈ word := by
  induction cs generalizing skip with
  | nil => cases h
  | cons d cs ih =>
    cases skip with
    | succ skip =>
      rw [List.take_succ_cons, List.forall_mem_cons] at skipped
      rcases List.mem_cons.1 h with rfl | h
      · exact .inr skipped.1
      · exact ih skip skipped.2 h
    | zero =>
      rw [strike]
      split
      · rename_i found
        obtain ⟨rest, e⟩ := List.isPrefixOf_iff_prefix.1 found
        obtain ⟨w, ws, rfl⟩ := List.exists_cons_of_ne_nil ne
        obtain ⟨rfl, rfl⟩ := List.cons.inj e
        rcases List.mem_cons.1 h with rfl | h
        · exact .inr List.mem_cons_self
        · refine ih _ ?_ h
          intro d hd
          have behind : d ∈ (ws ++ rest).take ws.length := hd
          rw [List.take_left] at behind
          exact List.mem_cons_of_mem _ behind
      · rcases List.mem_cons.1 h with rfl | h
        · exact .inl List.mem_cons_self
        · exact (ih 0 (by simp) h).imp_left (List.mem_cons_of_mem _)

theorem mem_withoutNames {c : Char} {cs : List Char} (h : c ∈ cs) :
    c ∈ withoutNames cs ∨ ∃ f : FunctionName, c ∈ f.word := by
  unfold withoutNames
  generalize FunctionName.all = fs
  induction fs generalizing cs with
  | nil => exact .inl h
  | cons f fs ih =>
    have ne : f.word ≠ [] := by cases f <;> decide
    rcases mem_strike ne 0 (by simp) h with left | name
    · exact ih left
    · exact .inr ⟨f, name⟩

/-- **A text that passes the checks consists of single bytes.** Any other character is refused. -/
theorem isAscii_of_accepted {cs : List Char} (h : Accepted cs) :
    ∀ c ∈ cs, c.utf8Size = 1 := by
  intro c hc
  have allowed : ∀ d ∈ allowedChars, (d.utf8Size == 1) = true := List.all_eq_true.1 rfl
  have name (f : FunctionName) : ∀ d ∈ f.word, (d.utf8Size == 1) = true := by
    cases f <;> exact List.all_eq_true.1 rfl
  rcases mem_withoutNames hc with left | ⟨f, member⟩
  · exact eq_of_beq (allowed c (h.allowed c left))
  · exact eq_of_beq (name f c member)

/-- **All texts that are looked at are balanced**, if the first one is. -/
theorem balanced_of_mem_visited {cs u : List Char} (h : Bracket.balanced cs = true)
    (hu : u ∈ visited cs) : Bracket.balanced u = true := by
  induction n : cs.length using Nat.strongRecOn generalizing cs with
  | ind n ih =>
    rw [visited_eq] at hu
    rcases List.mem_cons.1 hu with rfl | hu
    · exact h
    · obtain ⟨v, hv, hu⟩ := List.mem_flatMap.1 hu
      have shorter := Shape.length_lt_of_mem_pieces hv
      exact ih v.length (by omega) (Shape.balanced_of_mem_pieces h hv) hu rfl

end Reading

end CurvePuzzle
