import CurvePuzzle.Proofs.ScanPieces

/-!
# Slices by byte positions

A text can be cut at a byte position only if the position lies in the text and no character
straddles it, and a slice must not end before it starts. `slice` makes these tests, and reports a
`Fault` where one of them fails.

* `slice_eq_ok_iff`: a slice is what stands between two places where the text can be cut.
* `segmentsAt_positions`: a text can be cut at the operators that a scan reports.
* `Bracket.units_eq_flatMap`: the bytes of a text, character by character.
* `IsAscii`: one byte for each character. In such a text, byte positions count characters, and
  `units_eq`: its bytes are its characters.
-/

set_option autoImplicit false

namespace CurvePuzzle

/-- What can go wrong when texts are read by positions. -/
inductive Fault where
  /-- A search for a bracket was asked for where none stands. -/
  | misuse (m : Bracket.Misuse)
  /-- A search for a bracket closes a group that was not begun. -/
  | countBelowZero
  /-- The last position of an empty text was asked for. -/
  | noLastPosition
  /-- A slice ends before it starts. -/
  | backward (start stop : Nat)
  /-- A slice does not lie within the text. -/
  | outside
  /-- A slice cuts a character in two. -/
  | withinCharacter
  /-- The first operator of a text without operators was asked for. -/
  | noOperator
  /-- A text was to be read that is no shorter than the one it was taken from. -/
  | notShorter (u : List Char)
  /-- A text was to be read whose brackets do not match. -/
  | unbalanced (u : List Char)
  deriving DecidableEq, Repr

/-- The number of bytes of a text. -/
def byteLength : List Char → Nat
  | [] => 0
  | c :: cs => c.utf8Size + byteLength cs

@[simp] theorem byteLength_nil : byteLength [] = 0 := rfl

@[simp] theorem byteLength_cons (c : Char) (cs : List Char) :
    byteLength (c :: cs) = c.utf8Size + byteLength cs := rfl

@[simp] theorem byteLength_append (u v : List Char) :
    byteLength (u ++ v) = byteLength u + byteLength v := by
  induction u with
  | nil => simp
  | cons c u ih => simp [ih, Nat.add_assoc]

theorem byteLength_eq_zero_iff {cs : List Char} : byteLength cs = 0 ↔ cs = [] := by
  cases cs with
  | nil => simp
  | cons c cs =>
    have pos := c.utf8Size_pos
    simp only [byteLength_cons, reduceCtorEq, iff_false]
    omega

/-- The last byte position of a text. -/
def lastPosition (cs : List Char) : Except Fault Nat :=
  match byteLength cs with
  | 0 => .error .noLastPosition
  | last + 1 => .ok last

theorem lastPosition_eq {cs : List Char} (ne : cs ≠ []) :
    lastPosition cs = .ok (byteLength cs - 1) := by
  unfold lastPosition
  split
  · rename_i none
    exact absurd (byteLength_eq_zero_iff.1 none) ne
  · rename_i last total
    rw [total]
    rfl

/-! ## Cutting -/

/-- Two steps go well if the first one does, and the second one with its result. -/
theorem bind_eq_ok_iff {α β : Type} {step : Except Fault α} {f : α → Except Fault β} {b : β} :
    (step >>= f) = .ok b ↔ ∃ a, step = .ok a ∧ f a = .ok b := by
  cases step with
  | error fault => simp [bind, Except.bind]
  | ok a => simp [bind, Except.bind]

/-- The text before and behind a byte position. -/
def cutAt : Nat → List Char → Except Fault (List Char × List Char)
  | 0, cs => .ok ([], cs)
  | _ + 1, [] => .error .outside
  | n + 1, c :: cs =>
    if n + 1 < c.utf8Size then .error .withinCharacter
    else (cutAt (n + 1 - c.utf8Size) cs).map fun m => (c :: m.1, m.2)

/-- The text from one byte position up to another one. -/
def slice (cs : List Char) (start stop : Nat) : Except Fault (List Char) :=
  if stop < start then .error (.backward start stop)
  else do
    let (before, _) ← cutAt stop cs
    let (_, middle) ← cutAt start before
    return middle

theorem cutAt_zero_iff {cs u v : List Char} :
    cutAt 0 cs = .ok (u, v) ↔ cs = u ++ v ∧ byteLength u = 0 := by
  rw [cutAt, byteLength_eq_zero_iff]
  constructor
  · intro h
    cases h
    exact ⟨rfl, rfl⟩
  · rintro ⟨rfl, rfl⟩
    rfl

/-- **A text can be cut** at a position if the characters before it fill the bytes before it. -/
theorem cutAt_eq_ok_iff {n : Nat} {cs u v : List Char} :
    cutAt n cs = .ok (u, v) ↔ cs = u ++ v ∧ byteLength u = n := by
  induction cs generalizing n u with
  | nil =>
    cases n with
    | zero => exact cutAt_zero_iff
    | succ n =>
      simp only [cutAt, reduceCtorEq, false_iff]
      rintro ⟨e, size⟩
      rw [(List.nil_eq_append_iff.1 e).1] at size
      cases size
  | cons c cs ih =>
    have pos := c.utf8Size_pos
    cases n with
    | zero => exact cutAt_zero_iff
    | succ n =>
      rw [cutAt]
      constructor
      · intro h
        split at h
        · cases h
        · cases rest : cutAt (n + 1 - c.utf8Size) cs with
          | error fault =>
            rw [rest] at h
            cases h
          | ok m =>
            rw [rest] at h
            cases h
            obtain ⟨rfl, size⟩ := ih.1 rest
            refine ⟨rfl, ?_⟩
            rw [byteLength_cons, size]
            omega
      · rintro ⟨e, size⟩
        cases u with
        | nil => cases size
        | cons d u =>
          obtain ⟨rfl, rfl⟩ := List.cons.inj e
          rw [byteLength_cons] at size
          rw [if_neg (by omega), ih.2 ⟨rfl, by omega⟩]
          rfl

/-- **A slice** is what stands between its positions, where the text can be cut at both. -/
theorem slice_eq_ok_iff {cs v : List Char} {start stop : Nat} :
    slice cs start stop = .ok v ↔
      ∃ u w, cs = u ++ (v ++ w) ∧ byteLength u = start ∧ byteLength (u ++ v) = stop := by
  unfold slice
  constructor
  · intro h
    split at h
    · cases h
    · obtain ⟨⟨before, w⟩, outer, h⟩ := bind_eq_ok_iff.1 h
      obtain ⟨⟨u, middle⟩, inner, h⟩ := bind_eq_ok_iff.1 h
      cases h
      obtain ⟨rfl, total⟩ := cutAt_eq_ok_iff.1 outer
      obtain ⟨rfl, size⟩ := cutAt_eq_ok_iff.1 inner
      exact ⟨u, w, List.append_assoc u v w, size, total⟩
  · rintro ⟨u, w, rfl, rfl, rfl⟩
    rw [if_neg (by rw [byteLength_append]; omega)]
    refine bind_eq_ok_iff.2 ⟨(u ++ v, w), ?_, bind_eq_ok_iff.2 ⟨(u, v), ?_, rfl⟩⟩
    · exact cutAt_eq_ok_iff.2 ⟨(List.append_assoc u v w).symm, rfl⟩
    · exact cutAt_eq_ok_iff.2 ⟨rfl, rfl⟩

example : slice ['(', 'é', ')'] 2 4 = .error .withinCharacter := rfl

theorem slice_append (u v w : List Char) :
    slice (u ++ (v ++ w)) (byteLength u) (byteLength u + byteLength v) = .ok v :=
  slice_eq_ok_iff.2 ⟨u, w, rfl, rfl, byteLength_append u v⟩

theorem slice_prefix (u v : List Char) : slice (u ++ v) 0 (byteLength u) = .ok u := by
  have whole := slice_append [] u v
  rw [byteLength_nil, Nat.zero_add] at whole
  exact whole

theorem slice_suffix (u v : List Char) :
    slice (u ++ v) (byteLength u) (byteLength (u ++ v)) = .ok v := by
  have rest := slice_append u v []
  rw [List.append_nil, ← byteLength_append] at rest
  exact rest

/-- What is behind a single byte. -/
theorem slice_behind (u : List Char) {c : Char} (single : c.utf8Size = 1) (v : List Char) :
    slice (u ++ c :: v) (byteLength u + 1) (byteLength (u ++ c :: v)) = .ok v := by
  have rest := slice_suffix (u ++ [c]) v
  rw [byteLength_append, byteLength_cons, single, List.append_assoc] at rest
  exact rest

/-! ## Cutting at operators -/

/-- The text that begins at `start` and ends at the first of the operators. -/
def segmentFrom (cs : List Char) (start : Nat) (ops : List (Nat × Char)) :
    Except Fault (List Char) :=
  slice cs start ((ops.head?.map Prod.fst).getD (byteLength cs))

/-- Every operator with the text up to the next one. -/
def segmentsAt (cs : List Char) : List (Nat × Char) → Except Fault (List (Char × List Char))
  | [] => .ok []
  | (place, op) :: ops => do
    let segment ← segmentFrom cs (place + 1) ops
    let rest ← segmentsAt cs ops
    return (op, segment) :: rest

/-- The text before the first operator, and every operator with the text up to the next one. -/
def splitAtPositions (cs : List Char) (ops : List (Nat × Char)) :
    Except Fault (List Char × List (Char × List Char)) := do
  let head ← segmentFrom cs 0 ops
  let tail ← segmentsAt cs ops
  return (head, tail)

namespace Scan

theorem positions_cons (ops : List Char) (s : Scan) (offset : Nat) (c : Char) (cs : List Char) :
    s.positions ops offset (c :: cs) =
      if s.reports c && ops.contains c then
        (offset, c) :: (s.next c).positions ops (offset + c.utf8Size) cs
      else (s.next c).positions ops (offset + c.utf8Size) cs := rfl

/-- The positions hold the reported operators among those asked for. -/
theorem map_snd_positions (ops : List Char) (s : Scan) (offset : Nat) (cs : List Char) :
    (s.positions ops offset cs).map Prod.snd = (s.reported cs).filter ops.contains := by
  induction cs generalizing s offset with
  | nil => rfl
  | cons c cs ih =>
    have rest := ih (s.next c) (offset + c.utf8Size)
    rw [positions_cons]
    simp only [reported]
    by_cases reported : s.reports c = true
    · by_cases asked : ops.contains c = true
      · simp only [reported, asked, Bool.and_self, if_true, List.map_cons, List.filter_cons, rest]
      · simp only [reported, asked, Bool.and_false, if_true, Bool.false_eq_true, if_false,
          List.filter_cons, rest]
    · simp only [reported, Bool.false_and, Bool.false_eq_true, if_false, rest]

/-- Only the operators that are reported need to be asked for. -/
theorem positions_congr {ops ops' : List Char} {s : Scan} {cs : List Char}
    (h : ∀ c ∈ s.reported cs, ops.contains c = ops'.contains c) (offset : Nat) :
    s.positions ops offset cs = s.positions ops' offset cs := by
  induction cs generalizing s offset with
  | nil => rfl
  | cons c cs ih =>
    have rest := ih (fun d hd => h d (reported_subset_cons s c cs hd)) (offset + c.utf8Size)
    have here : (s.reports c && ops.contains c) = (s.reports c && ops'.contains c) := by
      by_cases reported : s.reports c = true
      · rw [h c (by rw [reported_cons, if_pos reported]; exact List.mem_cons_self)]
      · rw [Bool.eq_false_iff.2 reported]
        rfl
    rw [positions_cons, positions_cons, here, rest]

theorem utf8Size_of_isOperator {c : Char} (h : isOperator c = true) : c.utf8Size = 1 := by
  simp only [isOperator, operatorChars, List.contains_eq_mem, List.mem_cons, List.not_mem_nil,
    or_false, decide_eq_true_eq] at h
  rcases h with rfl | rfl | rfl | rfl | rfl <;> rfl

/-- The first position is where the first piece ends. -/
theorem head?_positions (ops : List Char) (s : Scan) (offset : Nat) (cs : List Char) :
    ((s.positions ops offset cs).head?.map Prod.fst).getD (offset + byteLength cs) =
      offset + byteLength (s.split ops cs).1 := by
  induction cs generalizing s offset with
  | nil => rfl
  | cons c cs ih =>
    rw [positions_cons]
    simp only [split]
    split
    · rfl
    · simp only [byteLength_cons, ← Nat.add_assoc]
      exact ih (s.next c) (offset + c.utf8Size)

/-- The text up to the first position is the first piece. -/
theorem segmentFrom_positions (ops : List Char) (s : Scan) (before cs : List Char) :
    segmentFrom (before ++ cs) (byteLength before) (s.positions ops (byteLength before) cs) =
      .ok (s.split ops cs).1 := by
  have text := split_join ops cs s
  have stop := head?_positions ops s (byteLength before) cs
  rw [segmentFrom, byteLength_append, stop]
  generalize (s.split ops cs).1 = head at text ⊢
  rw [← text]
  exact slice_append before head _

/-- **A text can be cut at the operators that a scan reports**, whatever text stands before it. -/
theorem segmentsAt_positions (ops : List Char) (s : Scan) (before cs : List Char) :
    segmentsAt (before ++ cs) (s.positions ops (byteLength before) cs) =
      .ok (s.split ops cs).2 := by
  induction cs generalizing s before with
  | nil => rfl
  | cons c cs ih =>
    have place : byteLength (before ++ [c]) = byteLength before + c.utf8Size := by simp
    have text : before ++ c :: cs = (before ++ [c]) ++ cs := by simp
    have rest := ih (s.next c) (before ++ [c])
    have segment := segmentFrom_positions ops (s.next c) (before ++ [c]) cs
    rw [place, ← text] at rest segment
    rw [positions_cons]
    simp only [split]
    split
    · rename_i cut
      simp only [reports, Bool.and_eq_true] at cut
      rw [utf8Size_of_isOperator cut.1.1.2] at rest segment ⊢
      rw [segmentsAt, segment, rest]
      rfl
    · exact rest

end Scan

theorem splitAtPositions_eq (ops cs : List Char) :
    splitAtPositions cs (operatorPositions ops cs) = .ok (splitAtOperators ops cs) := by
  have head := Scan.segmentFrom_positions ops .start [] cs
  have tail := Scan.segmentsAt_positions ops .start [] cs
  rw [byteLength_nil, List.nil_append] at head tail
  unfold splitAtPositions operatorPositions splitAtOperators
  rw [head, tail]
  rfl

/-! ## The bytes of a text -/

theorem byteArray_toList_loop (bytes : ByteArray) (i : Nat) (r : List UInt8) :
    ByteArray.toList.loop bytes i r = r.reverse ++ bytes.data.toList.drop i := by
  fun_induction ByteArray.toList.loop bytes i r with
  | case1 i r more ih =>
    have small : i < bytes.data.toList.length := by simpa using more
    have here : bytes.get! i = bytes.data.toList[i] := by
      show bytes.data[i]! = _
      rw [getElem!_pos bytes.data i (by simpa using small), Array.getElem_toList]
    rw [ih, here, List.drop_eq_getElem_cons small, List.reverse_cons, List.append_assoc]
    rfl
  | case2 i r none =>
    rw [List.drop_eq_nil_of_le (by simpa using none), List.append_nil]

namespace Bracket

/-- The bytes of a character, each shown as the character of the same number. -/
def charUnits (c : Char) : List Char :=
  (String.utf8EncodeChar c).map fun b => Char.ofNat b.toNat

/-- **The bytes of a text** are those of its characters, in a row. -/
theorem units_eq_flatMap (s : String) : units s = s.toList.flatMap charUnits := by
  have bytes : s.toUTF8.toList = s.toList.flatMap String.utf8EncodeChar := by
    have encoded : s.toUTF8 = s.toList.utf8Encode := by
      rw [String.toUTF8_eq_toByteArray, ← String.toByteArray_ofList, String.ofList_toList]
    rw [encoded, List.utf8Encode, ByteArray.toList, byteArray_toList_loop]
    simp
  unfold units
  rw [bytes, List.map_flatMap]
  rfl

theorem length_flatMap_charUnits (cs : List Char) :
    (cs.flatMap charUnits).length = byteLength cs := by
  induction cs with
  | nil => rfl
  | cons c cs ih =>
    rw [List.flatMap_cons, List.length_append, ih, byteLength_cons, charUnits, List.length_map,
      String.length_utf8EncodeChar]

theorem charUnits_of_single {c : Char} (single : c.utf8Size = 1) : charUnits c = [c] := by
  rw [charUnits, String.utf8EncodeChar_eq_singleton single, List.map_singleton]
  rw [Char.utf8Size_eq_one_iff, UInt32.le_iff_toNat_le] at single
  have small : c.toNat < 2 ^ 8 := Nat.lt_of_le_of_lt single (by decide)
  rw [UInt32.toNat_toUInt8]
  show [Char.ofNat (c.toNat % 2 ^ 8)] = [c]
  rw [Nat.mod_eq_of_lt small, Char.ofNat_toNat]

end Bracket

/-! ## One byte for each character -/

/-- All characters of the text are single bytes. -/
def IsAscii (cs : List Char) : Prop := ∀ c ∈ cs, c.utf8Size = 1

theorem IsAscii.of_infix {u cs : List Char} (h : IsAscii cs) (inside : u <:+: cs) : IsAscii u :=
  fun c hc => h c (inside.subset hc)

theorem IsAscii.byteLength_eq {cs : List Char} (h : IsAscii cs) : byteLength cs = cs.length := by
  induction cs with
  | nil => rfl
  | cons c cs ih =>
    obtain ⟨here, rest⟩ := List.forall_mem_cons.1 h
    rw [byteLength_cons, here, ih rest, List.length_cons, Nat.add_comm]

theorem IsAscii.lastPosition_concat {u : List Char} {c : Char} (h : IsAscii (u ++ [c])) :
    lastPosition (u ++ [c]) = .ok u.length := by
  rw [lastPosition_eq (List.concat_ne_nil c u), h.byteLength_eq, List.length_append,
    List.length_singleton, Nat.add_sub_cancel]

/-- **The bytes of such a text are its characters.** -/
theorem IsAscii.units_eq {cs : List Char} (h : IsAscii cs) :
    Bracket.units (String.ofList cs) = cs := by
  rw [Bracket.units_eq_flatMap, String.toList_ofList]
  induction cs with
  | nil => rfl
  | cons c cs ih =>
    obtain ⟨here, rest⟩ := List.forall_mem_cons.1 h
    rw [List.flatMap_cons, Bracket.charUnits_of_single here, ih rest, List.singleton_append]

end CurvePuzzle
