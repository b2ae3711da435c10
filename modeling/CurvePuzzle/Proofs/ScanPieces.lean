import CurvePuzzle.OperatorScan
import CurvePuzzle.Proofs.BracketDepth

/-!
# What a scan reports, piece by piece

* `Scan.after` is what a scan knows behind a text; `reported_append` and `split_append` take a text
  apart at any place.
* Two states stand out: `Scan.opened`, where an operand is awaited, and `Scan.closed`, behind one.
* A text without operators and brackets, a bracketed group, and a row of glued signs report nothing:
  `reported_plain`, `reported_group`, `reported_signs`.
* `split_quiet` and `quiet_of_mem_split`: a text is left whole exactly when nothing asked for is
  reported in it, and no piece of a cut can be cut again.
-/

set_option autoImplicit false

namespace CurvePuzzle

namespace Scan

/-- What is known behind a text. -/
def after (s : Scan) (cs : List Char) : Scan := cs.foldl next s

@[simp] theorem after_nil (s : Scan) : s.after [] = s := rfl

@[simp] theorem after_cons (s : Scan) (c : Char) (cs : List Char) :
    s.after (c :: cs) = (s.next c).after cs := rfl

theorem after_append (s : Scan) (u v : List Char) : s.after (u ++ v) = (s.after u).after v :=
  List.foldl_append

theorem reported_cons (s : Scan) (c : Char) (cs : List Char) :
    s.reported (c :: cs) =
      if s.reports c then c :: (s.next c).reported cs else (s.next c).reported cs := rfl

theorem reported_subset_cons (s : Scan) (c : Char) (cs : List Char) :
    (s.next c).reported cs ⊆ s.reported (c :: cs) := by
  intro d hd
  rw [reported_cons]
  split
  · exact List.mem_cons_of_mem _ hd
  · exact hd

theorem reported_append (s : Scan) (u v : List Char) :
    s.reported (u ++ v) = s.reported u ++ (s.after u).reported v := by
  induction u generalizing s with
  | nil => rfl
  | cons c u ih =>
    rw [List.cons_append, reported_cons, reported_cons, ih (s.next c), after_cons]
    split <;> rfl

/-- An operand is awaited, and there is text before it. -/
def opened : Scan := ⟨0, true, false⟩

/-- An operand lies behind. -/
def closed : Scan := ⟨0, false, false⟩

/-- Is this neither an operator nor a bracket? -/
def isPlain (c : Char) : Bool := !isOperator c && c != '(' && c != ')'

theorem next_plain {s : Scan} {c : Char} (hs : s.depth = 0) (h : isPlain c = true) :
    s.next c = closed := by
  simp only [isPlain, Bool.and_eq_true, Bool.not_eq_true', bne_iff_ne, ne_eq] at h
  simp [next, hs, h, closed]

theorem reports_eq_false_of_isOperator {s : Scan} {c : Char} (h : isOperator c = false) :
    s.reports c = false := by
  simp [reports, h]

/-- A text without operators and brackets reports nothing. -/
theorem reported_plain {s : Scan} {u : List Char} (hs : s.depth = 0)
    (h : ∀ c ∈ u, isPlain c = true) : s.reported u = [] := by
  induction u generalizing s with
  | nil => rfl
  | cons c u ih =>
    have hc := h c List.mem_cons_self
    have op : isOperator c = false := by
      simp only [isPlain, Bool.and_eq_true, Bool.not_eq_true'] at hc
      exact hc.1.1
    rw [reported_cons, reports_eq_false_of_isOperator op, next_plain hs hc]
    exact ih rfl fun c hc => h c (List.mem_cons_of_mem _ hc)

theorem after_plain {s : Scan} {u : List Char} (hs : s.depth = 0)
    (h : ∀ c ∈ u, isPlain c = true) (ne : u ≠ []) : s.after u = closed := by
  induction u generalizing s with
  | nil => exact absurd rfl ne
  | cons c u ih =>
    rw [after_cons, next_plain hs (h c List.mem_cons_self)]
    cases u with
    | nil => rfl
    | cons d u => exact ih rfl (fun c hc => h c (List.mem_cons_of_mem _ hc)) (List.cons_ne_nil d u)

/-! ## Within brackets -/

/-- Within brackets nothing is reported, and only the depth changes. -/
theorem inside_brackets {d e : Nat} {u : List Char} (h : Bracket.depthAfter? d u = some e) :
    reported ⟨d + 1, false, false⟩ u = [] ∧
      after ⟨d + 1, false, false⟩ u = ⟨e + 1, false, false⟩ := by
  induction u generalizing d with
  | nil =>
    obtain rfl := Option.some.inj h
    exact ⟨rfl, rfl⟩
  | cons c u ih =>
    have silent : reports ⟨d + 1, false, false⟩ c = false := by simp [reports]
    rw [reported_cons, silent, after_cons]
    simp only [Bracket.depthAfter?] at h
    split at h
    · rename_i ho
      obtain rfl := eq_of_beq ho
      exact ih h
    · rename_i ho
      split at h
      · rename_i hc
        obtain rfl := eq_of_beq hc
        cases d with
        | zero => simp at h
        | succ d => exact ih h
      · rename_i hc
        rw [show next ⟨d + 1, false, false⟩ c = ⟨d + 1, false, false⟩ by simp [next, ho, hc]]
        exact ih h

theorem next_bracket {s : Scan} (hs : s.depth = 0) : s.next '(' = ⟨0 + 1, false, false⟩ := by
  simp [next, hs]

/-- A bracketed group reports nothing. -/
theorem reported_group {s : Scan} {u : List Char} (hs : s.depth = 0)
    (hu : Bracket.balanced u = true) : s.reported ('(' :: (u ++ [')'])) = [] := by
  have inner := inside_brackets (Bracket.balanced_iff.1 hu)
  have silent : s.reports '(' = false := reports_eq_false_of_isOperator rfl
  rw [reported_cons, silent, next_bracket hs, if_neg Bool.false_ne_true, reported_append, inner.1,
    inner.2]
  rfl

theorem after_group {s : Scan} {u : List Char} (hs : s.depth = 0)
    (hu : Bracket.balanced u = true) : s.after ('(' :: (u ++ [')'])) = closed := by
  have inner := inside_brackets (Bracket.balanced_iff.1 hu)
  rw [after_cons, next_bracket hs, after_append, inner.2]
  rfl

/-! ## Signs -/

/-- Where an operand is awaited, signs are glued to it. -/
theorem reported_signs {u : List Char} (h : ∀ c ∈ u, c = '+' ∨ c = '-') :
    opened.reported u = [] ∧ opened.after u = opened := by
  induction u with
  | nil => exact ⟨rfl, rfl⟩
  | cons c u ih =>
    have rest := ih fun c hc => h c (List.mem_cons_of_mem _ hc)
    rcases h c List.mem_cons_self with rfl | rfl <;> exact rest

/-- Flags matter to signs only: a text that starts with none is read alike in all states. -/
theorem reported_eq_of_head {a b a' b' : Bool} {c : Char} {cs : List Char}
    (h : c ≠ '+' ∧ c ≠ '-') :
    reported ⟨0, a, b⟩ (c :: cs) = reported ⟨0, a', b'⟩ (c :: cs) := by
  have sign : (c == '+' || c == '-') = false := by simp [h]
  have step : next ⟨0, a, b⟩ c = next ⟨0, a', b'⟩ c := by simp [next]
  rw [reported_cons, reported_cons, step]
  simp [reports, isGlued, sign]

/-! ## Cutting -/

theorem next_eq_opened {s : Scan} {c : Char} (h : s.reports c = true) : s.next c = opened := by
  simp only [reports, Bool.and_eq_true, beq_iff_eq] at h
  obtain ⟨⟨hs, op⟩, -⟩ := h
  have ne {d : Char} (hd : isOperator d = false) : c ≠ d := by
    rintro rfl
    rw [hd] at op
    cases op
  simp [next, ne (d := '(') rfl, ne (d := ')') rfl, hs, op, opened]

theorem split_cons (ops : List Char) (s : Scan) (c : Char) (cs : List Char) :
    s.split ops (c :: cs) =
      if s.reports c && ops.contains c then
        ([], (c, ((s.next c).split ops cs).1) :: ((s.next c).split ops cs).2)
      else (c :: ((s.next c).split ops cs).1, ((s.next c).split ops cs).2) := rfl

/-- A cut falls where an operator that was asked for is reported. -/
theorem split_append {ops : List Char} {s : Scan} {u v : List Char} {c : Char}
    (h : (s.after u).reports c = true) (m : c ∈ ops) :
    s.split ops (u ++ c :: v) =
      ((s.split ops u).1,
        (s.split ops u).2 ++ (c, (opened.split ops v).1) :: (opened.split ops v).2) := by
  induction u generalizing s with
  | nil =>
    rw [after_nil] at h
    have both : (s.reports c && ops.contains c) = true := by simp [h, m]
    rw [List.nil_append, split_cons, both, if_pos rfl, next_eq_opened h]
    rfl
  | cons d u ih =>
    rw [after_cons] at h
    rw [List.cons_append, split_cons, ih h, split_cons]
    split <;> rfl

/-- A text is left whole when nothing asked for is reported in it. -/
theorem split_quiet {ops : List Char} {s : Scan} {u : List Char}
    (h : ∀ c ∈ s.reported u, c ∉ ops) : s.split ops u = (u, []) := by
  induction u generalizing s with
  | nil => rfl
  | cons c u ih =>
    have rest : ∀ d ∈ (s.next c).reported u, d ∉ ops :=
      fun d hd => h d (reported_subset_cons s c u hd)
    have here : (s.reports c && ops.contains c) = false := by
      rw [Bool.and_eq_false_iff]
      by_cases r : s.reports c = true
      · right
        have := h c (by rw [reported_cons, if_pos r]; exact List.mem_cons_self)
        simpa using this
      · left
        simpa using r
    rw [split_cons, ih rest, here]
    rfl

theorem quiet_split_head (ops : List Char) (s : Scan) (cs : List Char) :
    ∀ c ∈ s.reported (s.split ops cs).1, c ∉ ops := by
  induction cs generalizing s with
  | nil => intro c hc; cases hc
  | cons d cs ih =>
    intro c hc
    rw [split_cons] at hc
    split at hc
    · cases hc
    · rename_i quiet
      rw [reported_cons] at hc
      split at hc
      · rename_i r
        rcases List.mem_cons.1 hc with rfl | hc
        · simpa [r] using quiet
        · exact ih _ c hc
      · exact ih _ c hc

/-- What a piece reports, the whole text reports. -/
theorem reported_split_head (ops : List Char) (s : Scan) (cs : List Char) :
    s.reported (s.split ops cs).1 ⊆ s.reported cs := by
  induction cs generalizing s with
  | nil => exact List.Subset.refl _
  | cons d cs ih =>
    intro c hc
    rw [split_cons] at hc
    split at hc
    · cases hc
    · rw [reported_cons] at hc ⊢
      split at hc
      · rename_i r
        rw [if_pos r]
        rcases List.mem_cons.1 hc with rfl | hc
        · exact List.mem_cons_self
        · exact List.mem_cons_of_mem _ (ih _ hc)
      · rename_i r
        rw [if_neg r]
        exact ih _ hc

/-- **A piece behind a cut is the head of a cut of its own**: the rest of the text from there on, read
as where an operand is awaited. -/
theorem exists_rest_of_mem_split {ops : List Char} {s : Scan} {cs : List Char}
    {m : Char × List Char} (h : m ∈ (s.split ops cs).2) :
    ∃ rest, m.2 = (opened.split ops rest).1 ∧ opened.reported rest ⊆ s.reported cs := by
  induction cs generalizing s with
  | nil => cases h
  | cons d cs ih =>
    have behind := reported_subset_cons s d cs
    have later (h : m ∈ ((s.next d).split ops cs).2) :
        ∃ rest, m.2 = (opened.split ops rest).1 ∧ opened.reported rest ⊆ s.reported (d :: cs) := by
      obtain ⟨rest, head, sub⟩ := ih h
      exact ⟨rest, head, List.Subset.trans sub behind⟩
    rw [split_cons] at h
    split at h
    · rename_i cut
      rw [Bool.and_eq_true] at cut
      rcases List.mem_cons.1 h with rfl | h
      · rw [next_eq_opened cut.1] at behind ⊢
        exact ⟨cs, rfl, behind⟩
      · exact later h
    · exact later h

/-- **No piece of a cut can be cut again.** -/
theorem quiet_of_mem_split {ops : List Char} {s : Scan} {cs : List Char}
    {m : Char × List Char} (h : m ∈ (s.split ops cs).2) :
    ∀ c ∈ opened.reported m.2, c ∉ ops := by
  obtain ⟨rest, head, -⟩ := exists_rest_of_mem_split h
  rw [head]
  exact quiet_split_head ops opened rest

theorem reported_of_mem_split {ops : List Char} {s : Scan} {cs : List Char}
    {m : Char × List Char} (h : m ∈ (s.split ops cs).2) :
    opened.reported m.2 ⊆ s.reported cs := by
  obtain ⟨rest, head, sub⟩ := exists_rest_of_mem_split h
  rw [head]
  exact List.Subset.trans (reported_split_head ops opened rest) sub

theorem mem_ops_of_mem_split {ops : List Char} {s : Scan} {cs : List Char}
    {m : Char × List Char} (h : m ∈ (s.split ops cs).2) : m.1 ∈ ops := by
  have operators := split_operators ops cs s
  have mem : m.1 ∈ (s.split ops cs).2.map Prod.fst := List.mem_map_of_mem h
  rw [operators, List.mem_filter] at mem
  simpa using mem.2

end Scan

end CurvePuzzle
