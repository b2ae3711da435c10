import CurvePuzzle.Proofs.Slices

/-!
# Partners of brackets

One search counts depth forwards from an opening bracket, the other one backwards from a closing
bracket. Both look for the same thing, a balanced text in brackets, so each undoes the other.

* `IsGroup`: what stands from one position to another is a balanced text in brackets.
  `close?_eq_some_iff`, `open?_eq_some_iff`: this is what both searches find.
* `exists_group_of_opening`, `exists_group_of_closing`: in a balanced text each bracket belongs to a
  group.
* `depthAfter?_units`, `exists_cut_of_units`: brackets lie in the bytes of a text as they lie in the
  text, whatever other characters it has.
* `partners_are_inverse`: the two searches in the bytes of any text.
-/

set_option autoImplicit false

namespace CurvePuzzle.Bracket

variable {cs : List Char} {i j : Nat}

/-! ## Groups -/

/-- From position `i` to position `j` stands a balanced text in brackets. -/
def IsGroup (cs : List Char) (i j : Nat) : Prop :=
  ∃ before inner after, cs = before ++ '(' :: (inner ++ ')' :: after) ∧ before.length = i ∧
    i + inner.length + 1 = j ∧ balanced inner = true

theorem exists_cut_of_getElem? {c : Char} (found : cs[i]? = some c) :
    ∃ before after, cs = before ++ c :: after ∧ before.length = i := by
  obtain ⟨small, rfl⟩ := List.getElem?_eq_some_iff.1 found
  refine ⟨cs.take i, cs.drop (i + 1), ?_, List.length_take_of_le (Nat.le_of_lt small)⟩
  rw [← List.drop_eq_getElem_cons small, List.take_append_drop]

/-! ## What the searches find -/

theorem close?_cut (before after : List Char) :
    close? (before ++ '(' :: after) before.length =
      .ok ((closing? after).map (before.length + 1 + ·)) := by
  simp [close?]

theorem open?_cut (before after : List Char) :
    open? (before ++ ')' :: after) before.length =
      .ok ((opening? before.reverse).map (before.length - 1 - ·)) := by
  simp [open?]

/-- A search from a position that must hold the character `b`. -/
theorem eq_some_of_guarded {b : Char} {found : Option Char} {outside : Misuse}
    {other : Char → Misuse} {result answer : Option Nat}
    (h : (match found with
      | none => .error outside
      | some c => if c == b then .ok result else .error (other c)) = Except.ok answer) :
    found = some b := by
  split at h
  · cases h
  · split at h
    · rename_i bracket
      rw [eq_of_beq bracket]
    · cases h

theorem getElem?_of_close? {answer : Option Nat} (h : close? cs i = .ok answer) :
    cs[i]? = some '(' :=
  eq_some_of_guarded h

theorem getElem?_of_open? {answer : Option Nat} (h : open? cs j = .ok answer) :
    cs[j]? = some ')' :=
  eq_some_of_guarded h

/-- **The search forwards** finds the end of a group. -/
theorem close?_eq_some_iff : close? cs i = .ok (some j) ↔ IsGroup cs i j := by
  constructor
  · intro h
    obtain ⟨before, rest, rfl, rfl⟩ := exists_cut_of_getElem? (getElem?_of_close? h)
    rw [close?_cut, Except.ok.injEq, Option.map_eq_some_iff] at h
    obtain ⟨k, found, place⟩ := h
    obtain ⟨inner, after, rfl, rfl, balance⟩ := closing?_eq_some_iff.1 found
    exact ⟨before, inner, after, rfl, rfl, by omega, balance⟩
  · rintro ⟨before, inner, after, rfl, rfl, rfl, balance⟩
    have found : closing? (inner ++ ')' :: after) = some inner.length :=
      closing?_eq_some_iff.2 ⟨inner, after, rfl, rfl, balance⟩
    rw [close?_cut, found, Option.map_some, Nat.add_right_comm]

/-- **The search backwards** finds the start of a group. -/
theorem open?_eq_some_iff : open? cs j = .ok (some i) ↔ IsGroup cs i j := by
  constructor
  · intro h
    obtain ⟨rest, after, rfl, rfl⟩ := exists_cut_of_getElem? (getElem?_of_open? h)
    rw [open?_cut, Except.ok.injEq, Option.map_eq_some_iff] at h
    -- the search runs through the reversed text before the bracket and counts backwards
    obtain ⟨k, found, place⟩ := h
    obtain ⟨inner, before, text, rfl, balance⟩ := opening?_eq_some_iff.1 found
    obtain rfl : rest = before.reverse ++ '(' :: inner.reverse := by
      rw [← List.reverse_reverse rest, text]
      simp
    simp only [List.length_append, List.length_cons, List.length_reverse] at place ⊢
    refine ⟨before.reverse, inner.reverse, after, by simp, ?_, ?_, balance⟩
    · rw [List.length_reverse]
      omega
    · rw [List.length_reverse]
      omega
  · rintro ⟨before, inner, after, rfl, rfl, rfl, balance⟩
    have found : opening? (before ++ '(' :: inner).reverse = some inner.length := by
      refine opening?_eq_some_iff.2 ⟨inner.reverse, before.reverse, by simp, by simp, ?_⟩
      rwa [List.reverse_reverse]
    have text : before ++ '(' :: (inner ++ ')' :: after) =
        (before ++ '(' :: inner) ++ ')' :: after := by simp
    have last : before.length + inner.length + 1 = (before ++ '(' :: inner).length := by
      rw [List.length_append, List.length_cons, Nat.add_assoc]
    have first : before.length + inner.length + 1 - 1 - inner.length = before.length := by omega
    rw [text, last, open?_cut, found, Option.map_some, ← last, first]

/-! ## Brackets that have a partner -/

/-- A text that starts within a bracket opened at depth `d`, with `k` more groups open in it, and ends
at depth `d` or lower, closes that bracket. What comes before closes the `k` groups. -/
theorem exists_closing {d e k : Nat} (h : depthAfter? (d + 1 + k) cs = some e) (lower : e ≤ d) :
    ∃ inner after, cs = inner ++ ')' :: after ∧ depthAfter? k inner = some 0 := by
  induction cs generalizing k with
  | nil =>
    rw [depthAfter?_nil, Option.some.injEq] at h
    omega
  | cons c cs ih =>
    by_cases ho : c = '('
    · subst ho
      obtain ⟨inner, after, rfl, reached⟩ := ih (k := k + 1) h
      exact ⟨'(' :: inner, after, rfl, reached⟩
    · by_cases hc : c = ')'
      · subst hc
        cases k with
        | zero => exact ⟨[], cs, rfl, rfl⟩
        | succ k =>
          obtain ⟨inner, after, rfl, reached⟩ := ih (k := k) h
          exact ⟨')' :: inner, after, rfl, reached⟩
      · rw [depthAfter?_other ho hc] at h
        obtain ⟨inner, after, rfl, reached⟩ := ih h
        exact ⟨c :: inner, after, rfl, (depthAfter?_other ho hc k inner).trans reached⟩

/-- The depth between two parts of a balanced text. -/
theorem exists_depth_of_balanced {before after : List Char}
    (h : balanced (before ++ after) = true) :
    ∃ d, depthAfter? 0 before = some d ∧ depthAfter? d after = some 0 := by
  rwa [balanced_iff, depthAfter?_append, Option.bind_eq_some_iff] at h

/-- **Each opening bracket** of a balanced text starts a group. -/
theorem exists_group_of_opening (h : balanced cs = true) (bracket : cs[i]? = some '(') :
    ∃ j, IsGroup cs i j := by
  obtain ⟨before, rest, rfl, rfl⟩ := exists_cut_of_getElem? bracket
  obtain ⟨d, -, down⟩ := exists_depth_of_balanced h
  obtain ⟨inner, after, rfl, reached⟩ := exists_closing (k := 0) down (Nat.zero_le d)
  exact ⟨_, before, inner, after, rfl, rfl, rfl, balanced_iff.2 reached⟩

/-- **Each closing bracket** of a balanced text ends a group. Read from the other side it is an
opening one. -/
theorem exists_group_of_closing (h : balanced cs = true) (bracket : cs[j]? = some ')') :
    ∃ i, IsGroup cs i j := by
  obtain ⟨rest, after, rfl, rfl⟩ := exists_cut_of_getElem? bracket
  obtain ⟨d, up, down⟩ := exists_depth_of_balanced h
  cases d with
  | zero => cases down
  | succ d =>
    obtain ⟨inner, before, text, reached⟩ :=
      exists_closing (k := 0) (depthAfter?_mirror up) (Nat.zero_le d)
    have split : rest = (before.map mirror).reverse ++ '(' :: (inner.map mirror).reverse := by
      have back := congrArg (List.map mirror) text
      rw [map_mirror_mirror] at back
      rw [← List.reverse_reverse rest, back]
      simp [mirror]
    subst split
    refine ⟨_, (before.map mirror).reverse, (inner.map mirror).reverse, after, by simp, rfl, ?_, ?_⟩
    · rw [List.length_append, List.length_cons]
      omega
    · rw [← List.map_reverse, balanced_mirror, List.reverse_reverse]
      exact balanced_iff.2 reached

/-! ## Brackets in the bytes of a text -/

/-- The bytes of a character of several bytes have high numbers. -/
theorem high_of_mem_utf8EncodeChar {c : Char} (wide : c.utf8Size ≠ 1) {b : UInt8}
    (mem : b ∈ String.utf8EncodeChar c) : 128 ≤ b.toNat := by
  rw [Ne, Char.utf8Size_eq_one_iff, UInt32.le_iff_toNat_le] at wide
  have single : (127 : UInt32).toNat = 127 := rfl
  simp only [String.utf8EncodeChar] at mem
  rw [if_neg (by omega)] at mem
  split at mem
  · simp only [List.mem_cons, List.not_mem_nil, or_false] at mem
    rcases mem with rfl | rfl <;> simp only [UInt8.toNat_ofNat'] <;> omega
  · split at mem
    · simp only [List.mem_cons, List.not_mem_nil, or_false] at mem
      rcases mem with rfl | rfl | rfl <;> simp only [UInt8.toNat_ofNat'] <;> omega
    · simp only [List.mem_cons, List.not_mem_nil, or_false] at mem
      rcases mem with rfl | rfl | rfl | rfl <;> simp only [UInt8.toNat_ofNat'] <;> omega

theorem toNat_ofNat_byte (b : UInt8) : (Char.ofNat b.toNat).toNat = b.toNat := by
  have small : b.toNat < 2 ^ 8 := b.toNat_lt
  have valid : b.toNat.isValidChar := .inl (by omega)
  unfold Char.ofNat
  rw [dif_pos valid]
  rfl

/-- No byte of such a character looks like a bracket. -/
theorem plain_of_wide {c : Char} (wide : c.utf8Size ≠ 1) :
    ∀ u ∈ charUnits c, u ≠ '(' ∧ u ≠ ')' := by
  intro u mem
  obtain ⟨b, hb, rfl⟩ := List.mem_map.1 mem
  have high := high_of_mem_utf8EncodeChar wide hb
  constructor
  · intro bracket
    have code := toNat_ofNat_byte b
    rw [bracket] at code
    have : '('.toNat = 40 := rfl
    omega
  · intro bracket
    have code := toNat_ofNat_byte b
    rw [bracket] at code
    have : ')'.toNat = 41 := rfl
    omega

theorem ne_bracket_of_wide {c : Char} (wide : c.utf8Size ≠ 1) : c ≠ '(' ∧ c ≠ ')' := by
  constructor
  · rintro rfl
    exact wide rfl
  · rintro rfl
    exact wide rfl

/-- **The depth** is the same, counted in a text or in its bytes. -/
theorem depthAfter?_units (d : Nat) (cs : List Char) :
    depthAfter? d (cs.flatMap charUnits) = depthAfter? d cs := by
  induction cs generalizing d with
  | nil => rfl
  | cons c cs ih =>
    rw [List.flatMap_cons]
    by_cases single : c.utf8Size = 1
    · have step (u : List Char) :
          depthAfter? d ([c] ++ u) = (depthAfter? d [c]).bind fun e => depthAfter? e u :=
        depthAfter?_append d [c] u
      rw [charUnits_of_single single, ← List.singleton_append (l := cs), step, step]
      simp only [ih]
    · obtain ⟨ho, hc⟩ := ne_bracket_of_wide single
      rw [depthAfter?_append, depthAfter?_of_plain (plain_of_wide single), Option.bind_some, ih,
        depthAfter?_other ho hc]

theorem balanced_units (cs : List Char) : balanced (cs.flatMap charUnits) = balanced cs := by
  rw [Bool.eq_iff_iff, balanced_iff, balanced_iff, depthAfter?_units]

theorem charUnits_of_bracket {b : Char} (bracket : b = '(' ∨ b = ')') : charUnits b = [b] := by
  rcases bracket with rfl | rfl <;> rfl

/-- The bytes of any other character look like no bracket. -/
theorem ne_of_mem_charUnits {b c u : Char} (bracket : b = '(' ∨ b = ')') (other : c ≠ b)
    (mem : u ∈ charUnits c) : u ≠ b := by
  by_cases single : c.utf8Size = 1
  · rw [charUnits_of_single single, List.mem_singleton] at mem
    rwa [mem]
  · obtain ⟨ho, hc⟩ := plain_of_wide single u mem
    rcases bracket with rfl | rfl
    · exact ho
    · exact hc

/-- A mark lies behind a piece of text in which it does not occur. -/
theorem exists_rest_of_not_mem {piece rest before after : List Char} {b : Char}
    (h : ∀ u ∈ piece, u ≠ b) (text : piece ++ rest = before ++ b :: after) :
    ∃ more, before = piece ++ more ∧ rest = more ++ b :: after := by
  rcases List.append_eq_append_iff.1 text with ⟨more, split, tail⟩ | ⟨more, split, tail⟩
  · exact ⟨more, split, tail⟩
  · cases more with
    | nil => exact ⟨[], by simpa using split.symm, by simpa using tail.symm⟩
    | cons u more =>
      obtain ⟨rfl, -⟩ := List.cons.inj tail
      exact absurd rfl (h b (by simp [split]))

/-- **Where the bytes of a text have a bracket**, the text has it. -/
theorem exists_cut_of_units {b : Char} (bracket : b = '(' ∨ b = ')') {before after : List Char}
    (h : cs.flatMap charUnits = before ++ b :: after) :
    ∃ u v, cs = u ++ b :: v ∧ u.flatMap charUnits = before ∧ v.flatMap charUnits = after := by
  induction cs generalizing before with
  | nil => simp at h
  | cons c cs ih =>
    rw [List.flatMap_cons] at h
    by_cases here : c = b
    · subst here
      rw [charUnits_of_bracket bracket, List.singleton_append] at h
      cases before with
      | nil => exact ⟨[], cs, rfl, rfl, (List.cons.inj h).2⟩
      | cons d before =>
        obtain ⟨rfl, rest⟩ := List.cons.inj h
        obtain ⟨u, v, rfl, first, last⟩ := ih rest
        refine ⟨c :: u, v, rfl, ?_, last⟩
        rw [List.flatMap_cons, charUnits_of_bracket bracket, first, List.singleton_append]
    · have other : ∀ u ∈ charUnits c, u ≠ b := fun u => ne_of_mem_charUnits bracket here
      obtain ⟨more, rfl, rest⟩ := exists_rest_of_not_mem other h
      obtain ⟨u, v, rfl, first, last⟩ := ih rest
      exact ⟨c :: u, v, rfl, by rw [List.flatMap_cons, first], last⟩

/-- **A group in the bytes** of a text has a balanced slice of the text between its brackets. -/
theorem balanced_slice_of_isGroup (h : IsGroup (cs.flatMap charUnits) i j) :
    ∃ inner, slice cs (i + 1) j = .ok inner ∧ balanced inner = true := by
  obtain ⟨before, bytes, after, text, rfl, rfl, balance⟩ := h
  obtain ⟨u, rest, rfl, rfl, behind⟩ := exists_cut_of_units (.inl rfl) text
  obtain ⟨inner, v, rfl, rfl, -⟩ := exists_cut_of_units (.inr rfl) behind
  refine ⟨inner, slice_eq_ok_iff.2 ⟨u ++ ['('], ')' :: v, by simp, ?_, ?_⟩, ?_⟩
  · rw [byteLength_append, length_flatMap_charUnits]
    rfl
  · have bracket : byteLength ['('] = 1 := rfl
    rw [byteLength_append, byteLength_append, length_flatMap_charUnits, length_flatMap_charUnits,
      bracket]
    omega
  · rw [← balanced_units]
    exact balance

/-! ## Both searches -/

/-- **The two searches undo each other**, in the bytes of any text, balanced or not. The closing
bracket that is found lies behind the opening one, with a balanced slice of the text in between, and
the search from there leads back; so it does the other way round. In a balanced text the searches
find a partner for each bracket. -/
theorem partners_are_inverse (s : String) :
    (∀ i j, close? (units s) i = .ok (some j) →
      i < j ∧ (units s)[j]? = some ')' ∧
        (∃ inner, slice s.toList (i + 1) j = .ok inner ∧ balanced inner = true) ∧
        open? (units s) j = .ok (some i)) ∧
      (∀ i j, open? (units s) j = .ok (some i) → close? (units s) i = .ok (some j)) ∧
      (balanced s.toList = true →
        (∀ i, (units s)[i]? = some '(' → ∃ j, close? (units s) i = .ok (some j)) ∧
          ∀ j, (units s)[j]? = some ')' → ∃ i, open? (units s) j = .ok (some i)) := by
  rw [units_eq_flatMap]
  simp only [close?_eq_some_iff, open?_eq_some_iff]
  refine ⟨?_, fun i j group => group, ?_⟩
  · intro i j group
    have ends := getElem?_of_open? (open?_eq_some_iff.2 group)
    refine ⟨?_, ends, balanced_slice_of_isGroup group, group⟩
    obtain ⟨before, inner, after, -, -, last, -⟩ := group
    omega
  · intro h
    rw [← balanced_units] at h
    exact ⟨fun i => exists_group_of_opening h, fun j => exists_group_of_closing h⟩

/-- In the text `é((x)(`, where two brackets are never closed, those at bytes 3 and 5 are partners;
in the balanced text `é()` the closing bracket has one. -/
theorem partners_behind_a_wide_character :
    close? (units (String.ofList ['é', '(', '(', 'x', ')', '('])) 3 = .ok (some 5) ∧
      open? (units (String.ofList ['é', '(', '(', 'x', ')', '('])) 5 = .ok (some 3) ∧
      balanced ['é', '(', ')'] = true ∧
      ∃ i, open? (units (String.ofList ['é', '(', ')'])) 3 = .ok (some i) := by
  have found : close? (units (String.ofList ['é', '(', '(', 'x', ')', '('])) 3 = .ok (some 5) := by
    rw [units_eq_flatMap, String.toList_ofList]
    rfl
  have balance : balanced ['é', '(', ')'] = true := rfl
  have bracket : (units (String.ofList ['é', '(', ')']))[3]? = some ')' := by
    rw [units_eq_flatMap, String.toList_ofList]
    rfl
  obtain ⟨forth, -, -⟩ := partners_are_inverse (String.ofList ['é', '(', '(', 'x', ')', '('])
  obtain ⟨-, -, all⟩ := partners_are_inverse (String.ofList ['é', '(', ')'])
  rw [String.toList_ofList] at all
  exact ⟨found, (forth 3 5 found).2.2.2, balance, (all balance).2 3 bracket⟩

end CurvePuzzle.Bracket
