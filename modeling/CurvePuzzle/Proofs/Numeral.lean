import Mathlib.Data.List.TakeDrop
import CurvePuzzle.Proofs.ScanPieces
import CurvePuzzle.Formula.Shape

/-!
# Numerals

A numeral is digits with at most one point among them, and at least one digit.

* `Numeral.text` and `Numeral.value` are its text and the float nearest to its decimal value.
* `readFloat?_text`, `readFloat?_signed`: a numeral, also behind one sign, reads as that float.
* `exists_numeral`: what looks like a number and reads as one is a numeral behind at most one sign.
-/

set_option autoImplicit false

namespace CurvePuzzle

/-! ## Up to the first other character -/

section Stop

variable {p : Char → Bool} {l r : List Char}

theorem Text.takeWhile_append_of_stop (all : ∀ c ∈ l, p c = true)
    (stop : ∀ c ∈ r.head?, p c = false) : (l ++ r).takeWhile p = l := by
  rw [List.takeWhile_append_of_pos all]
  cases r with
  | nil => simp
  | cons c r => simp [stop c rfl]

theorem Text.dropWhile_append_of_stop (all : ∀ c ∈ l, p c = true)
    (stop : ∀ c ∈ r.head?, p c = false) : (l ++ r).dropWhile p = r := by
  rw [List.dropWhile_append_of_pos all]
  cases r with
  | nil => rfl
  | cons c r => simp [stop c rfl]

end Stop

/-! ## Numerals -/

/-- Digits with at most one point, and not without a digit. -/
structure Numeral where
  whole : List Char
  /-- The digits behind the point, if there is one. -/
  fraction : Option (List Char)
  whole_digits : ∀ c ∈ whole, c.isDigit = true
  fraction_digits : ∀ c ∈ fraction.getD [], c.isDigit = true
  some_digit : whole ≠ [] ∨ fraction.getD [] ≠ []

namespace Numeral

/-- What is written of a fraction. -/
def fractionText : Option (List Char) → List Char
  | none => []
  | some ds => '.' :: ds

/-- The text of a numeral. -/
def text (n : Numeral) : List Char := n.whole ++ fractionText n.fraction

/-- The float nearest to the decimal value of a numeral. -/
def value (n : Numeral) : Float :=
  Decimal.ofDigits (n.whole ++ n.fraction.getD []) (0 - (n.fraction.getD []).length)

/-- The value of a numeral behind one sign. -/
def signedValue (n : Numeral) : Polarity → Float
  | .direct => n.value
  | .inverse => -n.value

theorem not_isDigit_point : '.'.isDigit = false := by decide

/-- The digits of a text up to the first character that is none. -/
theorem span_digits {ds r : List Char} (hd : ∀ c ∈ ds, c.isDigit = true)
    (hr : ∀ c ∈ r.head?, c.isDigit = false) : (ds ++ r).span Char.isDigit = (ds, r) := by
  rw [List.span_eq_takeWhile_dropWhile, Text.takeWhile_append_of_stop hd hr,
    Text.dropWhile_append_of_stop hd hr]

theorem head?_fractionText (f : Option (List Char)) :
    ∀ c ∈ (fractionText f).head?, c.isDigit = false := by
  cases f with
  | none => intro c hc; cases hc
  | some ds =>
    intro c hc
    obtain rfl := Option.some.inj hc
    exact not_isDigit_point

theorem readMagnitude?_text (n : Numeral) : Decimal.readMagnitude? n.text = some n.value := by
  obtain ⟨whole, fraction, hw, hf, some⟩ := n
  unfold Decimal.readMagnitude? text value
  simp only [span_digits hw (head?_fractionText fraction)]
  cases fraction with
  | none =>
    have ne : whole ≠ [] := by simpa using some
    simp [fractionText, ne, Decimal.readExponent?]
  | some ds =>
    have all : (ds ++ []).span Char.isDigit = (ds, []) :=
      span_digits hf (fun c hc => by cases hc)
    rw [List.append_nil] at all
    have ne : (whole.isEmpty && ds.isEmpty) = false := by
      cases whole with
      | nil => cases ds with
        | nil => simp at some
        | cons d ds => rfl
      | cons d ds => rfl
    simp only [fractionText, all, ne, Decimal.readExponent?]
    rfl

/-- The first character of a numeral is a digit or the point. -/
theorem exists_cons (n : Numeral) :
    ∃ c cs, n.text = c :: cs ∧ (c.isDigit = true ∨ c = '.') := by
  obtain ⟨whole, fraction, hw, hf, some⟩ := n
  cases whole with
  | cons c cs => exact ⟨c, cs ++ fractionText fraction, rfl, .inl (hw c List.mem_cons_self)⟩
  | nil =>
    cases fraction with
    | none => simp at some
    | some ds => exact ⟨'.', ds, rfl, .inr rfl⟩

theorem mem_text {n : Numeral} {c : Char} (h : c ∈ n.text) : c.isDigit = true ∨ c = '.' := by
  obtain ⟨whole, fraction, hw, hf, some⟩ := n
  rcases List.mem_append.1 h with h | h
  · exact .inl (hw c h)
  · cases fraction with
    | none => cases h
    | some ds =>
      rcases List.mem_cons.1 h with rfl | h
      · exact .inr rfl
      · exact .inl (hf c h)

/-- Digits and the point are neither operators nor brackets. -/
theorem isPlain_of_isDigit {c : Char} (h : c.isDigit = true) : Scan.isPlain c = true := by
  have ne {d : Char} (hd : d.isDigit = false) : c ≠ d := by
    rintro rfl
    rw [hd] at h
    cases h
  simp [Scan.isPlain, isOperator, operatorChars, ne (d := '+') rfl, ne (d := '-') rfl,
    ne (d := '*') rfl, ne (d := '/') rfl, ne (d := '^') rfl, ne (d := '(') rfl, ne (d := ')') rfl]

theorem isPlain_of_mem_text {n : Numeral} {c : Char} (h : c ∈ n.text) :
    Scan.isPlain c = true := by
  rcases mem_text h with h | rfl
  · exact isPlain_of_isDigit h
  · rfl

/-- No sign is split off a text that starts with none. -/
theorem splitSign_of_head {c : Char} {cs : List Char} (h : c ≠ '-' ∧ c ≠ '+') :
    Decimal.splitSign (c :: cs) = (false, c :: cs) := by
  unfold Decimal.splitSign
  split
  · rename_i e
    exact absurd (List.cons.inj e).1 h.1
  · rename_i e
    exact absurd (List.cons.inj e).1 h.2
  · rfl

theorem splitSign_text (n : Numeral) : Decimal.splitSign n.text = (false, n.text) := by
  obtain ⟨c, cs, e, h⟩ := n.exists_cons
  rw [e]
  apply splitSign_of_head
  constructor <;> rintro rfl <;> revert h <;> decide

theorem splitSign_signed (p : Polarity) (cs : List Char) :
    Decimal.splitSign (p.termSign :: cs) = (p == .inverse, cs) := by
  cases p <;> rfl

/-- **A numeral reads as its value.** -/
theorem readFloat?_text (n : Numeral) : Decimal.readFloat? n.text = some n.value := by
  simp [Decimal.readFloat?, splitSign_text, readMagnitude?_text]

theorem readFloat?_signed (n : Numeral) (p : Polarity) :
    Decimal.readFloat? (p.termSign :: n.text) = some (n.signedValue p) := by
  cases p <;> simp [Decimal.readFloat?, splitSign_signed, readMagnitude?_text, signedValue]

theorem isNumeral_of_splitSign {cs : List Char} {b : Bool} {n : Numeral}
    (h : Decimal.splitSign cs = (b, n.text)) : Shape.isNumeral cs = true := by
  obtain ⟨whole, fraction, hw, hf, some⟩ := n
  unfold Shape.isNumeral
  rw [h, text]
  simp only
  rw [List.dropWhile_append_of_pos hw]
  cases fraction with
  | none => rfl
  | some ds =>
    rw [fractionText, List.dropWhile_cons_of_neg (by rw [not_isDigit_point]; decide)]
    simpa using hf

theorem isNumeral_text (n : Numeral) : Shape.isNumeral n.text = true :=
  isNumeral_of_splitSign n.splitSign_text

theorem isNumeral_signed (n : Numeral) (p : Polarity) :
    Shape.isNumeral (p.termSign :: n.text) = true :=
  isNumeral_of_splitSign (splitSign_signed p n.text)

/-! ## What reads as a number -/

/-- The words for infinite and undefined values have a letter that is no digit. -/
theorem readWord?_eq_none {cs : List Char} (h : cs = [] ∨ cs = ['.']) :
    Decimal.readWord? cs = none := by
  rcases h with rfl | rfl <;> decide

theorem exists_numeral_of_magnitude {cs : List Char} {v : Float}
    (shape : (match cs.dropWhile Char.isDigit with
      | '.' :: cs => cs.all Char.isDigit
      | cs => cs.isEmpty) = true)
    (read : (Decimal.readMagnitude? cs).or (Decimal.readWord? cs) = some v) :
    ∃ n : Numeral, cs = n.text := by
  have whole : ∀ c ∈ cs.takeWhile Char.isDigit, c.isDigit = true :=
    fun c hc => List.all_eq_true.1 (List.all_takeWhile (l := cs) (p := Char.isDigit)) c hc
  have parts := (List.takeWhile_append_dropWhile (p := Char.isDigit) (l := cs)).symm
  split at shape
  · rename_i ds e
    rw [e] at parts
    by_cases ne : cs.takeWhile Char.isDigit ≠ [] ∨ ds ≠ []
    · exact ⟨⟨_, some ds, whole, by simpa using shape, ne⟩, parts⟩
    · -- a lone point is no number
      simp only [ne_eq, not_or, Decidable.not_not] at ne
      rw [ne.1, ne.2, List.nil_append] at parts
      rw [parts, readWord?_eq_none (.inr rfl)] at read
      cases read
  · rename_i e
    rw [List.isEmpty_iff.1 shape, List.append_nil] at parts
    by_cases ne : cs.takeWhile Char.isDigit ≠ []
    · refine ⟨⟨_, none, whole, by simp, .inl ne⟩, ?_⟩
      rw [text, fractionText, List.append_nil]
      exact parts
    · simp only [ne_eq, Decidable.not_not] at ne
      rw [parts, ne, readWord?_eq_none (.inl rfl)] at read
      cases read

/-- **Numbers are numerals**, behind at most one sign. -/
theorem exists_numeral {cs : List Char} {v : Float} (shape : Shape.isNumeral cs = true)
    (read : Decimal.readFloat? cs = some v) :
    ∃ n : Numeral, cs = n.text ∨ ∃ p : Polarity, cs = p.termSign :: n.text := by
  unfold Shape.isNumeral at shape
  unfold Decimal.readFloat? at read
  obtain ⟨w, read, -⟩ := Option.map_eq_some_iff.1 read
  obtain ⟨n, e⟩ := exists_numeral_of_magnitude shape read
  refine ⟨n, ?_⟩
  rw [← e]
  unfold Decimal.splitSign
  split
  · exact .inr ⟨.inverse, rfl⟩
  · exact .inr ⟨.direct, rfl⟩
  · exact .inl rfl

end Numeral

end CurvePuzzle
