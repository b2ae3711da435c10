import Mathlib.Data.List.Forall2
import CurvePuzzle.Proofs.DocumentDraft
import CurvePuzzle.Proofs.DocumentMap
import CurvePuzzle.Proofs.Numeral

/-!
# A draft is read back

Nothing marks the end of a section: the reader takes entries until the next name has no colon
behind it, and the white space behind the values of an entry, line ends included, is gone by then.
The lemmas follow the readers from a single value to the whole text. Each says what is read of a
draft with some text behind it, and that exactly this text is left.

* `Draft.readSection_lines`: a section is taken with all its entries and nothing of the next one.
* `Draft.laid_out_sections_read_back`: **a text that lays out sections** is read as these sections,
  or refused with the first title that occurs again.
-/

set_option autoImplicit false

namespace CurvePuzzle

namespace Draft

open Document (isSpace isGap isToken isWord)

/-! ## What the parts of a draft are read as -/

/-- The value that a token is read as. -/
def Token.value (t : Token) : Value := .ofToken t.chars

/-- The key with the values that an entry is read as. -/
def Entry.read (e : Entry) : String × List Value := (e.key.text, e.values.map Token.value)

/-- The title with the keys that a section is read as. -/
def Section.read (s : Section) : String × CurvePuzzle.Section :=
  (s.title.text, .ofEntries (s.entries.map Entry.read))

/-! ## The loops of the reader -/

section Loops

variable {cs rest : List Char}

theorem furtherValues_of_some {v : Value} (h : Document.furtherToken? cs = some (v, rest)) :
    Document.furtherValues cs =
      (v :: (Document.furtherValues rest).1, (Document.furtherValues rest).2) := by
  rw [Document.furtherValues]
  split <;> simp_all

theorem furtherValues_of_none (h : Document.furtherToken? cs = none) :
    Document.furtherValues cs = ([], cs) := by
  rw [Document.furtherValues]
  split <;> simp_all

theorem entries_of_ok {e : String × List Value} (h : Document.entry cs = .ok (e, rest)) :
    Document.entries cs = (e :: (Document.entries rest).1, (Document.entries rest).2) := by
  rw [Document.entries]
  split <;> simp_all

theorem entries_of_error {place : List Char} (h : Document.entry cs = .error place) :
    Document.entries cs = ([], cs) := by
  rw [Document.entries]
  split <;> simp_all

theorem sections_of_ok {s : String × CurvePuzzle.Section}
    (h : Document.readSection cs = .ok (s, rest)) :
    Document.sections cs = (s :: (Document.sections rest).1, (Document.sections rest).2) := by
  rw [Document.sections]
  split <;> simp_all

theorem sections_of_error {place : List Char} (h : Document.readSection cs = .error place) :
    Document.sections cs = ([], cs) := by
  rw [Document.sections]
  split <;> simp_all

end Loops

/-! ## Values -/

/-- The text is empty, or a line ends here. -/
def Ends (cs : List Char) : Prop := ∀ c ∈ cs.head?, c = '\n'

theorem Ends.stop {cs : List Char} (h : Ends cs) {p : Char → Bool} (feed : p '\n' = false) :
    ∀ c ∈ cs.head?, p c = false := fun c hc => by rw [h c hc, feed]

theorem Ends.mark {cs : List Char} (h : Ends cs) {m : Char} (ne : m ≠ '\n') :
    ∃ place, Document.mark m cs = .error place := by
  cases cs with
  | nil => exact ⟨[], rfl⟩
  | cons c cs =>
    obtain rfl : c = '\n' := h c rfl
    refine ⟨'\n' :: cs, ?_⟩
    rw [Document.mark, List.dropWhile_cons_of_neg (by decide)]
    exact if_neg fun same => ne (eq_of_beq same).symm

/-- A mark with one blank behind it. -/
theorem mark_cons {m : Char} (solid : isSpace m = false) {cs : List Char}
    (stop : ∀ c ∈ cs.head?, isSpace c = false) :
    Document.mark m (m :: ' ' :: cs) = .ok ((), cs) := by
  have blank : (' ' :: cs).dropWhile isSpace = cs :=
    Text.dropWhile_append_of_stop (List.forall_mem_singleton.2 (by decide)) stop
  rw [Document.mark, List.dropWhile_cons_of_neg (by simp [solid])]
  simp only [beq_self_eq_true, if_true, blank]

namespace Token

theorem isToken_chars (t : Token) : ∀ c ∈ t.chars, isToken c = true := by
  intro c hc
  have plain := t.isPlain c hc
  simp only [List.mem_cons, List.not_mem_nil, or_false, not_or] at plain
  simp [isToken, isGap, isSpace, plain]

/-- A token begins with no blank. -/
theorem head?_chars (t : Token) (cs : List Char) :
    ∀ c ∈ (t.chars ++ cs).head?, isSpace c = false := by
  intro c hc
  obtain ⟨first, others, split⟩ := List.exists_cons_of_ne_nil t.isSome
  have mem : c ∈ t.chars := by
    rw [split] at hc ⊢
    obtain rfl := Option.some.inj hc
    exact List.mem_cons_self
  have plain := t.isPlain c mem
  simp only [List.mem_cons, List.not_mem_nil, or_false, not_or] at plain
  simp [isSpace, plain]

end Token

theorem token?_chars (t : Token) {cs : List Char} (stop : ∀ c ∈ cs.head?, isToken c = false) :
    Document.token? (t.chars ++ cs) = some (t.value, cs) := by
  have all := t.isToken_chars
  obtain ⟨first, others, split⟩ := List.exists_cons_of_ne_nil t.isSome
  rw [split] at all
  obtain ⟨begins, all⟩ := List.forall_mem_cons.1 all
  rw [Token.value, split, List.cons_append, Document.token?, if_pos begins,
    Text.takeWhile_append_of_stop all stop, Text.dropWhile_append_of_stop all stop]

theorem Ends.token? {cs : List Char} (h : Ends cs) : Document.token? cs = none := by
  cases cs with
  | nil => rfl
  | cons c cs =>
    obtain rfl : c = '\n' := h c rfl
    rfl

/-- Behind a value comes a comma or the end of its line. -/
theorem stop_further (ts : List Token) {cs : List Char} (h : Ends cs) :
    ∀ c ∈ (Entry.further ts ++ cs).head?, isToken c = false := by
  cases ts with
  | nil => exact h.stop (by decide)
  | cons t ts =>
    intro c hc
    obtain rfl : ',' = c := Option.some.inj hc
    decide

theorem furtherValues_further (ts : List Token) {cs : List Char} (h : Ends cs) :
    Document.furtherValues (Entry.further ts ++ cs) = (ts.map Token.value, cs) := by
  induction ts with
  | nil =>
    obtain ⟨place, noComma⟩ := h.mark (m := ',') (by decide)
    exact furtherValues_of_none (by rw [Entry.further, List.flatMap_nil, List.nil_append,
      Document.furtherToken?, noComma])
  | cons t ts ih =>
    have split : Entry.further (t :: ts) ++ cs =
        ',' :: ' ' :: (t.chars ++ (Entry.further ts ++ cs)) := by
      simp [Entry.further]
    have next : Document.furtherToken? (Entry.further (t :: ts) ++ cs) =
        some (t.value, Entry.further ts ++ cs) := by
      rw [split, Document.furtherToken?, mark_cons (by decide) (t.head?_chars _)]
      exact token?_chars t (stop_further ts h)
    rw [furtherValues_of_some next, ih]
    rfl

theorem values_list (ts : List Token) {cs : List Char} (h : Ends cs) :
    Document.values (Entry.list ts ++ cs) = (ts.map Token.value, cs) := by
  cases ts with
  | nil => rw [Entry.list, List.nil_append, Document.values, h.token?]; rfl
  | cons t ts =>
    rw [Entry.list, List.append_assoc, Document.values, token?_chars t (stop_further ts h)]
    simp only [furtherValues_further ts h]
    rfl

/-! ## Entries -/

namespace Name

theorem identifier_chars (n : Name) {cs : List Char} (stop : ∀ c ∈ cs.head?, isWord c = false) :
    Document.identifier (n.chars ++ cs) = .ok (n.text, cs) := by
  have begins : Document.isInitial n.initial = true := by
    simpa [Document.isInitial] using n.isInitial
  have words : ∀ c ∈ n.others, isWord c = true := fun c hc => by
    simpa [isWord] using n.areWords c hc
  rw [text, chars, List.cons_append, Document.identifier, if_pos begins,
    Text.takeWhile_append_of_stop words stop, Text.dropWhile_append_of_stop words stop]

theorem trimStart_chars (n : Name) (cs : List Char) :
    Text.trimStart (n.chars ++ cs) = n.chars ++ cs :=
  Text.trimStart_cons n.not_isBlank_initial _

/-- A name begins with no blank and no line end. -/
theorem isGap_initial (n : Name) : isGap n.initial = false := by
  refine Bool.eq_false_iff.2 fun gap => ?_
  have solid := n.not_isBlank_initial
  simp only [isGap, isSpace, Bool.or_eq_true, beq_iff_eq] at gap
  rcases gap with ((same | same) | same) | same <;> rw [same] at solid <;> cases solid

theorem isSpace_initial (n : Name) : isSpace n.initial = false :=
  (Bool.or_eq_false_iff.1 (Bool.or_eq_false_iff.1 n.isGap_initial).1).1

end Name

/-- **An entry** is read as its key with its values, up to the next text that is not blank. -/
theorem entry_body (e : Entry) {cs : List Char} (h : Ends cs) :
    Document.entry (e.body ++ cs) = .ok (e.read, Text.trimStart cs) := by
  have split : e.body ++ cs = e.key.chars ++ ':' :: ' ' :: (Entry.list e.values ++ cs) := by
    simp [Entry.body]
  have stop : ∀ c ∈ (Entry.list e.values ++ cs).head?, isSpace c = false := by
    cases e.values with
    | nil => exact h.stop (by decide)
    | cons t ts => rw [Entry.list, List.append_assoc]; exact t.head?_chars _
  have colon : ∀ c ∈ (':' :: ' ' :: (Entry.list e.values ++ cs)).head?, isWord c = false := by
    intro c hc
    obtain rfl : ':' = c := Option.some.inj hc
    decide
  rw [split, Document.entry, e.key.identifier_chars colon]
  simp only [mark_cons (m := ':') (by decide) stop, values_list e.values h]
  rfl

/-- A title is no entry, as its line ends behind it. -/
theorem exists_entry_title (n : Name) {cs : List Char} (h : Ends cs) :
    ∃ place, Document.entry (n.chars ++ cs) = .error place := by
  obtain ⟨place, noColon⟩ := h.mark (m := ':') (by decide)
  refine ⟨place, ?_⟩
  rw [Document.entry, n.identifier_chars (h.stop (by decide))]
  simp only [noColon]

/-! ## Lines -/

/-- The text of these lines from its first character on that is not blank. -/
def opening (ls : List (List Char)) : List Char := Text.trimStart (Text.joinLines ls)

/-- What these lines are behind another line. -/
def ending : List (List Char) → List Char
  | [] => []
  | l :: ls => '\n' :: Text.joinLines (l :: ls)

theorem joinLines_cons (l : List Char) (ls : List (List Char)) :
    Text.joinLines (l :: ls) = l ++ ending ls := by
  cases ls with
  | nil => rw [ending, List.append_nil]; rfl
  | cons l' ls => rfl

theorem ends_ending (ls : List (List Char)) : Ends (ending ls) := by
  intro c hc
  cases ls with
  | nil => cases hc
  | cons l ls => exact (Option.some.inj hc).symm

theorem trimStart_ending (ls : List (List Char)) : Text.trimStart (ending ls) = opening ls := by
  cases ls with
  | nil => rfl
  | cons l ls =>
    have split : ending (l :: ls) = ['\n'] ++ Text.joinLines (l :: ls) := rfl
    rw [split, Text.trimStart_append_of_blank (List.forall_mem_singleton.2 (by decide)), opening]

theorem opening_title (n : Name) (ls : List (List Char)) :
    opening (n.chars :: ls) = n.chars ++ ending ls := by
  rw [opening, joinLines_cons, n.trimStart_chars]

theorem opening_line (e : Entry) (ls : List (List Char)) :
    opening (e.line :: ls) = e.body ++ ending ls := by
  have blank : e.line ++ ending ls = [' '] ++ (e.body ++ ending ls) := rfl
  have key : e.body ++ ending ls = e.key.chars ++ (':' :: ' ' :: Entry.list e.values ++ ending ls) :=
    List.append_assoc _ _ _
  rw [opening, joinLines_cons, blank,
    Text.trimStart_append_of_blank (List.forall_mem_singleton.2 (by decide)), key,
    e.key.trimStart_chars]

/-- Behind a title, the blanks before the first key include a line end. -/
theorem dropWhile_isGap_ending (e : Entry) (ls : List (List Char)) :
    (ending (e.line :: ls)).dropWhile isGap = e.body ++ ending ls := by
  have split : ending (e.line :: ls) = ['\n', ' '] ++ (e.body ++ ending ls) := by
    rw [ending, joinLines_cons]; rfl
  rw [split]
  refine Text.dropWhile_append_of_stop (by simp [isGap, isSpace]) fun c hc => ?_
  obtain rfl : e.key.initial = c := Option.some.inj hc
  exact e.key.isGap_initial

/-! ## Sections -/

/-- The lines do not go on with an entry. -/
def Closed (ls : List (List Char)) : Prop := ∃ place, Document.entry (opening ls) = .error place

theorem closed_sections (ss : List Section) : Closed (ss.flatMap Section.lines) := by
  cases ss with
  | nil => exact ⟨[], rfl⟩
  | cons s ss =>
    rw [Closed, List.flatMap_cons, Section.lines, List.cons_append, opening_title]
    exact exists_entry_title s.title (ends_ending _)

/-- The entries are taken up to the line that is none. -/
theorem entries_lines (es : List Entry) {ls : List (List Char)} (closed : Closed ls) :
    Document.entries (opening (es.map Entry.line ++ ls)) = (es.map Entry.read, opening ls) := by
  induction es with
  | nil =>
    obtain ⟨place, none⟩ := closed
    exact entries_of_error none
  | cons e es ih =>
    -- the line end behind the values is trimmed together with the blank before the next key
    have next : Document.entry (opening ((e :: es).map Entry.line ++ ls)) =
        .ok (e.read, opening (es.map Entry.line ++ ls)) := by
      rw [List.map_cons, List.cons_append, opening_line, entry_body e (ends_ending _),
        trimStart_ending]
    rw [entries_of_ok next, ih]
    rfl

/-- **A section** is taken with all its entries, and what follows is left. -/
theorem readSection_lines (s : Section) {ls : List (List Char)} (closed : Closed ls) :
    Document.readSection (opening (s.lines ++ ls)) = .ok (s.read, opening ls) := by
  obtain ⟨title, first, others⟩ := s
  have start : (title.chars ++ ending (first.line :: (others.map Entry.line ++ ls))).dropWhile
      isSpace = title.chars ++ ending (first.line :: (others.map Entry.line ++ ls)) :=
    List.dropWhile_cons_of_neg (by simp [title.isSpace_initial])
  have lines : Section.lines ⟨title, first, others⟩ ++ ls =
      title.chars :: first.line :: (others.map Entry.line ++ ls) := rfl
  rw [lines, opening_title, Document.readSection, start,
    title.identifier_chars ((ends_ending _).stop (by decide))]
  simp only [dropWhile_isGap_ending, entry_body first (ends_ending _), trimStart_ending,
    entries_lines others closed]
  rfl

theorem sections_lines (ss : List Section) :
    Document.sections (opening (ss.flatMap Section.lines)) = (ss.map Section.read, []) := by
  induction ss with
  | nil =>
    have none : Document.readSection [] = .error [] := rfl
    exact sections_of_error none
  | cons s ss ih =>
    have next : Document.readSection (opening ((s :: ss).flatMap Section.lines)) =
        .ok (s.read, opening (ss.flatMap Section.lines)) :=
      readSection_lines s (closed_sections ss)
    rw [sections_of_ok next, ih]
    rfl

/-! ## Texts -/

/-- A text that lays out sections is read as what the sections are read as, if all titles differ. -/
theorem read_of_laidOut {ss : List Section} {text : String}
    (laid : LaidOut (ss.flatMap Section.lines) text.toList) :
    Document.read text =
      match Document.repeatedTitle? [] (ss.map Section.read) with
      | some title => .error (.repeatedSection title)
      | none => .ok (ss.map Section.read) := by
  have kept : Document.withoutComments text.toList =
      Text.joinLines (ss.flatMap Section.lines) := by
    rw [Document.withoutComments, filter_lines_of_laidOut laid fun _ => isContent_of_mem_lines]
  cases ss with
  | nil =>
    rw [Document.read, kept]
    rfl
  | cons s ss =>
    -- the first line is a title, so there is nothing to trim
    have whole : Text.joinLines ((s :: ss).flatMap Section.lines) =
        opening (s.lines ++ ss.flatMap Section.lines) := by
      rw [List.flatMap_cons, Section.lines, List.cons_append, joinLines_cons, opening_title]
    have isText : Text.allBlank (opening (s.lines ++ ss.flatMap Section.lines)) = false := by
      rw [Section.lines, List.cons_append, opening_title]
      simp [Text.allBlank, Name.chars, s.title.not_isBlank_initial]
    rw [Document.read]
    simp only [kept, whole, isText, Document.readSections, readSection_lines s (closed_sections ss),
      sections_lines ss]
    rfl

/-! ## What a draft says -/

/-- The value of a token is the first one of an integer, a number and a truth value that it is the
text of, and else the token itself. -/
inductive Token.Means (t : Token) : Value → Prop where
  | integer {i : Int} (reads : Decimal.readInteger? t.chars = some i) : t.Means (.integer i)
  | float {v : Float} (noInteger : Decimal.readInteger? t.chars = none)
      (reads : Decimal.readFloat? t.chars = some v) : t.Means (.float v)
  | boolean {b : Bool} (noInteger : Decimal.readInteger? t.chars = none)
      (noFloat : Decimal.readFloat? t.chars = none) (reads : t.chars = (toString b).toList) :
      t.Means (.boolean b)
  | text (noInteger : Decimal.readInteger? t.chars = none)
      (noFloat : Decimal.readFloat? t.chars = none)
      (noBoolean : ∀ b : Bool, t.chars ≠ (toString b).toList) : t.Means (.text t.chars)

theorem Token.means_value (t : Token) : t.Means t.value := by
  rw [Token.value, Value.ofToken]
  split
  · rename_i i reads
    exact .integer reads
  · rename_i noInteger
    split
    · rename_i v reads
      exact .float noInteger reads
    · rename_i noFloat
      split
      · rename_i isTrue
        exact .boolean (b := true) noInteger noFloat (eq_of_beq isTrue)
      · rename_i notTrue
        split
        · rename_i isFalse
          exact .boolean (b := false) noInteger noFloat (eq_of_beq isFalse)
        · rename_i notFalse
          refine .text noInteger noFloat fun b => ?_
          cases b with
          | false => exact fun same => notFalse (beq_iff_eq.2 same)
          | true => exact fun same => notTrue (beq_iff_eq.2 same)

theorem Token.means_values (ts : List Token) :
    List.Forall₂ Token.Means ts (ts.map Token.value) := by
  rw [List.forall₂_map_right_iff, List.forall₂_same]
  exact fun t _ => t.means_value

namespace Section

/-- The title of a section as a string. -/
def heading (s : Section) : String := s.title.text

/-- The values that a section gives a key last. -/
def lastValues? (s : Section) (key : String) : Option (List Token) :=
  (s.entries.reverse.find? fun e => e.key.text = key).map Entry.values

/-- The section is recorded under its title, with the last values of each of its keys, and no key
besides. -/
structure Recorded (s : Section) (r : String × CurvePuzzle.Section) : Prop where
  title : r.1 = s.heading
  values (key : String) :
    Option.Rel (List.Forall₂ Token.Means) (s.lastValues? key) (r.2.lookup key)

theorem lookup_map_read (es : List Entry) (key : String) :
    (es.map Entry.read).lookup key =
      ((es.find? fun e => e.key.text = key).map Entry.values).map (·.map Token.value) := by
  induction es with
  | nil => rfl
  | cons e es ih =>
    rw [List.map_cons, Keyed.lookup_cons, List.find?_cons, ih]
    by_cases here : e.key.text = key
    · simp [here, Entry.read]
    · simp [here, Ne.symm here, Entry.read]

theorem recorded_read (s : Section) : s.Recorded s.read where
  title := rfl
  values key := by
    rw [Section.read, CurvePuzzle.Section.lookup_ofEntries, ← List.map_reverse, lookup_map_read,
      ← lastValues?]
    cases s.lastValues? key with
    | none => exact .none
    | some ts => exact .some (Token.means_values ts)

end Section

/-- **A text that lays out sections is read back.** If their titles differ, the document has these
titles, and under each of them every key with the values that it was given last. Otherwise the first
title that occurs again is named. -/
theorem laid_out_sections_read_back {ss : List Section} {text : String}
    (laid : LaidOut (ss.flatMap Section.lines) text.toList) :
    ((ss.map Section.heading).Nodup →
      ∃ d, Document.read text = .ok d ∧ Document.IsMap d ∧ List.Forall₂ Section.Recorded ss d) ∧
    (¬(ss.map Section.heading).Nodup →
      ∃ title, Document.RepeatedOf (ss.map Section.heading) title ∧
        Document.read text = .error (.repeatedSection title) ∧
        (DocumentError.repeatedSection title).message = "section '" ++ title ++ "' appears twice") := by
  have result := read_of_laidOut laid
  have titles : (ss.map Section.read).map Prod.fst = ss.map Section.heading := List.map_map
  have found : Document.repeatedTitle? [] (ss.map Section.read) = none ↔ _ :=
    Document.repeatedTitle?_eq_none_iff
  rw [titles] at found
  constructor
  · intro differ
    rw [found.2 ⟨differ, fun _ _ => List.not_mem_nil⟩] at result
    refine ⟨_, result, Document.isMap_of_read result, ?_⟩
    rw [List.forall₂_map_right_iff, List.forall₂_same]
    exact fun s _ => s.recorded_read
  · intro again
    cases search : Document.repeatedTitle? [] (ss.map Section.read) with
    | none => exact absurd (found.1 search).1 again
    | some title =>
      rw [search] at result
      exact ⟨title, titles ▸ Document.repeatedOf_of_repeatedTitle? search, result, rfl⟩

/-- A section that gives a key two times, and another key no value. -/
def repeatedKey : Section :=
  { title := ⟨'a', [], by decide, by simp⟩
    first := ⟨⟨'k', [], by decide, by simp⟩, [⟨['7'], by decide, by simp⟩]⟩
    others := [
      ⟨⟨'k', [], by decide, by simp⟩,
        [⟨"-2.5".toList, by decide, by simp⟩, ⟨"true".toList, by decide, by simp⟩]⟩,
      ⟨⟨'_', [], by decide, by simp⟩, []⟩] }

/-- A section with one key. -/
def oneKey : Section :=
  { title := ⟨'b', ['_'], by decide, by simp⟩
    first := ⟨⟨'k', [], by decide, by simp⟩, [⟨"x:y".toList, by decide, by simp⟩]⟩
    others := [] }

theorem commented_sections_read_back :
    (∃ d, Document.read
        "# first\r\na\r\n k: 7\n \t\n k: -2.5, true\r\n _: \n //next\nb_\n k: x:y" = .ok d ∧
      Document.IsMap d ∧ List.Forall₂ Section.Recorded [repeatedKey, oneKey] d) ∧
    ∃ title, Document.RepeatedOf ["b_", "b_"] title ∧
      Document.read "b_\n k: x:y\nb_\r\n k: x:y\n" = .error (.repeatedSection title) ∧
      (DocumentError.repeatedSection title).message =
        "section '" ++ title ++ "' appears twice" := by
  have blank : Text.isBlank ' ' = true ∧ Text.isBlank '\t' = true := by decide
  constructor
  · refine (laid_out_sections_read_back ?_).1 (by decide)
    exact
      .idle ⟨by decide, [], "# first".toList, rfl, by simp, .inr ⟨['#'], by decide, by decide⟩⟩
        ['\r', '\n'] (by decide) <|
      .line _ ['\r', '\n'] (by decide) <|
      .line _ ['\n'] (by decide) <|
      .idle ⟨by decide, " \t".toList, [], rfl, by simp [blank], .inl rfl⟩ ['\n'] (by decide) <|
      .line _ ['\r', '\n'] (by decide) <|
      .line _ ['\n'] (by decide) <|
      .idle ⟨by decide, [' '], "//next".toList, rfl, by simp [blank],
        .inr ⟨['/', '/'], by decide, by decide⟩⟩ ['\n'] (by decide) <|
      .line _ ['\n'] (by decide) <|
      .lastLine _
  · have laid : LaidOut ([oneKey, oneKey].flatMap Section.lines)
        "b_\n k: x:y\nb_\r\n k: x:y\n".toList :=
      .line _ ['\n'] (by decide) <|
      .line _ ['\n'] (by decide) <|
      .line _ ['\r', '\n'] (by decide) <|
      .line _ ['\n'] (by decide) .nothing
    exact (laid_out_sections_read_back laid).2 (by decide)

end Draft

end CurvePuzzle
