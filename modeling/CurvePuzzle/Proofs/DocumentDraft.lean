import CurvePuzzle.Document.Reader

/-!
# Documents as they are written

A document is drafted as a row of sections. Every section is written as a line with its title and
a line for each key with its values. A text lays these lines out when it holds them in order, each
ended by a line feed, with or without a carriage return, and among them any number of comment lines
and blank lines.

* `Draft.Section`: a section with its title, and at least one key; `Draft.Section.lines`.
* `Draft.LaidOut`: the texts that lay out given lines.
* `Draft.filter_lines_of_laidOut`: dropping comments and blank lines leaves exactly these lines.
-/

set_option autoImplicit false

namespace CurvePuzzle

namespace Text

/-! ## Trimming -/

theorem trimStart_append_of_blank {bs : List Char} (h : ∀ c ∈ bs, isBlank c = true)
    (cs : List Char) : trimStart (bs ++ cs) = trimStart cs :=
  List.dropWhile_append_of_pos h

theorem trimStart_cons {c : Char} (h : isBlank c = false) (cs : List Char) :
    trimStart (c :: cs) = c :: cs :=
  List.dropWhile_cons_of_neg (by simp [h])

/-- Trimming the end of a text keeps its last character that is not blank, and all before it. -/
theorem exists_trimEnd (cs : List Char) {c : Char} (h : isBlank c = false) (ds : List Char) :
    ∃ es, trimEnd (cs ++ c :: ds) = cs ++ c :: es := by
  have stop : (c :: cs.reverse).dropWhile isBlank = c :: cs.reverse :=
    List.dropWhile_cons_of_neg (by simp [h])
  have reversed : (cs ++ c :: ds).reverse = ds.reverse ++ c :: cs.reverse := by simp
  rw [trimEnd, reversed, List.dropWhile_append]
  split
  · exact ⟨[], by rw [stop]; simp⟩
  · exact ⟨(ds.reverse.dropWhile isBlank).reverse, by simp⟩

theorem trim_append_of_blank {bs : List Char} (h : ∀ c ∈ bs, isBlank c = true)
    (cs : List Char) : trim (bs ++ cs) = trim cs := by
  rw [trim, trim, trimStart_append_of_blank h]

theorem trim_append_blank (cs : List Char) {c : Char} (h : isBlank c = true) :
    trim (cs ++ [c]) = trim cs := by
  have last (ds : List Char) : trimEnd (ds ++ [c]) = trimEnd ds := by
    rw [trimEnd, trimEnd, List.reverse_append, List.reverse_singleton, List.singleton_append,
      List.dropWhile_cons_of_pos h]
  have drop : trimStart (cs ++ [c]) = trimStart cs ++ [c] ∨
      trimStart (cs ++ [c]) = [] ∧ trimStart cs = [] := by
    rw [trimStart, trimStart, List.dropWhile_append]
    split
    · rename_i empty
      exact .inr ⟨List.dropWhile_cons_of_pos h, List.isEmpty_iff.1 empty⟩
    · exact .inl rfl
  rw [trim, trim]
  rcases drop with kept | ⟨none, none'⟩
  · rw [kept, last]
  · rw [none, none']

/-! ## Lines -/

/-- The line without a carriage return at its end. -/
def dropReturn (cs : List Char) : List Char :=
  if cs.getLast? = some '\r' then cs.dropLast else cs

theorem dropReturn_append_return (cs : List Char) : dropReturn (cs ++ ['\r']) = cs := by
  rw [dropReturn, List.getLast?_concat, if_pos rfl, List.dropLast_concat]

theorem dropReturn_of_not_mem {cs : List Char} (h : '\r' ∉ cs) : dropReturn cs = cs :=
  if_neg fun last => h (List.mem_of_getLast? last)

theorem dropReturn_cons {c : Char} {cs : List Char} (h : cs ≠ []) :
    dropReturn (c :: cs) = c :: dropReturn cs := by
  obtain ⟨d, ds, rfl⟩ := List.exists_cons_of_ne_nil h
  rw [dropReturn, dropReturn, List.getLast?_cons_cons]
  split <;> rfl

theorem trim_dropReturn (cs : List Char) : trim (dropReturn cs) = trim cs := by
  unfold dropReturn
  split
  · rename_i last
    obtain ⟨ds, rfl⟩ := List.getLast?_eq_some_iff.1 last
    rw [List.dropLast_concat, trim_append_blank ds (by decide)]
  · rfl

theorem lines_feed (cs : List Char) : lines ('\n' :: cs) = [] :: lines cs := by
  rw [lines.eq_3 _ _ fun _ h _ => absurd h (by decide)]
  rfl

/-- A character that ends no line belongs to the next line. -/
theorem lines_cons {c : Char} {cs : List Char} (ne : c ≠ '\n')
    (alone : c = '\r' → cs.head? ≠ some '\n') :
    lines (c :: cs) =
      match lines cs with
      | [] => [[c]]
      | l :: ls => (c :: l) :: ls := by
  rw [lines.eq_3 c cs fun ds hc hcs => alone hc (by rw [hcs, List.head?_cons])]
  exact if_neg (by simpa using ne)

/-- A line and its line feed come first. -/
theorem lines_append {cs : List Char} (h : '\n' ∉ cs) (ds : List Char) :
    lines (cs ++ '\n' :: ds) = dropReturn cs :: lines ds := by
  induction cs with
  | nil => exact lines_feed ds
  | cons c cs ih =>
    obtain ⟨ne, rest⟩ := not_or.1 (mt List.mem_cons.2 h)
    cases cs with
    | nil =>
      -- the last character before the line feed: a carriage return goes with it
      by_cases isReturn : c = '\r'
      · subst isReturn
        exact lines.eq_2 ds
      · have kept : dropReturn [c] = [c] := dropReturn_of_not_mem (by simpa [eq_comm] using isReturn)
        rw [List.singleton_append, lines_cons (Ne.symm ne) fun h => absurd h isReturn, lines_feed,
          kept]
    | cons d cs =>
      have alone : (d :: cs ++ '\n' :: ds).head? ≠ some '\n' := by
        intro head
        obtain rfl := Option.some.inj head
        exact rest List.mem_cons_self
      rw [List.cons_append, lines_cons (Ne.symm ne) fun _ => alone, ih rest,
        dropReturn_cons (List.cons_ne_nil d cs)]

/-- A last line needs no line end. -/
theorem lines_of_not_mem {cs : List Char} (h : '\n' ∉ cs) (some : cs ≠ []) : lines cs = [cs] := by
  induction cs with
  | nil => exact absurd rfl some
  | cons c cs ih =>
    obtain ⟨ne, rest⟩ := not_or.1 (mt List.mem_cons.2 h)
    have alone : cs.head? ≠ Option.some '\n' := fun head => rest (List.mem_of_head? head)
    rw [lines_cons (Ne.symm ne) fun _ => alone]
    cases cs with
    | nil => rfl
    | cons d cs => rw [ih rest (List.cons_ne_nil d cs)]

end Text

/-! ## Drafts -/

namespace Draft

/-- A title or a key: a letter or an underscore, and then letters, digits and underscores. -/
structure Name where
  initial : Char
  others : List Char
  isInitial : initial.isAlpha = true ∨ initial = '_'
  areWords : ∀ c ∈ others, c.isAlphanum = true ∨ c = '_'

/-- The characters of a name. -/
def Name.chars (n : Name) : List Char := n.initial :: n.others

/-- The name as a string. -/
def Name.text (n : Name) : String := String.ofList n.chars

/-- A value as it is written: some text without commas, semicolons and what separates values and
lines. -/
structure Token where
  chars : List Char
  isSome : chars ≠ []
  isPlain : ∀ c ∈ chars, c ∉ [',', ';', ' ', '\t', '\r', '\n']

/-- A key with its values. -/
structure Entry where
  key : Name
  values : List Token

namespace Entry

/-- Values behind a first one, each behind a comma and a blank. -/
def further (ts : List Token) : List Char := ts.flatMap fun t => ',' :: ' ' :: t.chars

/-- The values, separated by a comma and a blank. -/
def list : List Token → List Char
  | [] => []
  | t :: ts => t.chars ++ further ts

/-- A line from its key on. -/
def body (e : Entry) : List Char := e.key.chars ++ ':' :: ' ' :: list e.values

/-- The line of an entry. -/
def line (e : Entry) : List Char := ' ' :: e.body

end Entry

/-- A section: its title, and its keys in order, of which there is at least one. A key may occur
again. -/
structure Section where
  title : Name
  first : Entry
  others : List Entry

namespace Section

/-- The keys of the section in order. -/
def entries (s : Section) : List Entry := s.first :: s.others

/-- The lines of a section. -/
def lines (s : Section) : List (List Char) := s.title.chars :: s.entries.map Entry.line

end Section

/-- What comment lines begin with, behind any blanks. -/
def commentMarks : List (List Char) := [['/', '/'], ['#'], ['%'], [';']]

/-- The line says nothing: it is blank, or a comment. -/
def IsIdle (cs : List Char) : Prop :=
  '\n' ∉ cs ∧ ∃ blanks rest, cs = blanks ++ rest ∧ (∀ c ∈ blanks, Text.isBlank c = true) ∧
    (rest = [] ∨ ∃ mark ∈ commentMarks, mark <+: rest)

/-- The ends that a line may have. -/
def lineEnds : List (List Char) := [['\n'], ['\r', '\n']]

/-- The text consists of these lines, each with its end, among lines that say nothing; the last line
of the text may go without an end. -/
inductive LaidOut : List (List Char) → List Char → Prop where
  | nothing : LaidOut [] []
  | lastLine (l : List Char) : LaidOut [l] l
  | lastIdle {l : List Char} (idle : IsIdle l) : LaidOut [] l
  | line (l eol : List Char) (ends : eol ∈ lineEnds) {ls : List (List Char)} {cs : List Char}
      (rest : LaidOut ls cs) : LaidOut (l :: ls) (l ++ eol ++ cs)
  | idle {l : List Char} (idle : IsIdle l) (eol : List Char) (ends : eol ∈ lineEnds)
      {ls : List (List Char)} {cs : List Char} (rest : LaidOut ls cs) : LaidOut ls (l ++ eol ++ cs)

/-! ## Dropping what says nothing -/

open Document (isComment)

theorem isComment_dropReturn (cs : List Char) :
    isComment (Text.dropReturn cs) = isComment cs := by
  rw [isComment, isComment, Text.trim_dropReturn]

theorem exists_trim_mark {mark : List Char} (known : mark ∈ commentMarks) (cs : List Char) :
    ∃ es, Text.trim (mark ++ cs) = mark ++ es := by
  simp only [commentMarks, List.mem_cons, List.not_mem_nil, or_false] at known
  rcases known with rfl | rfl | rfl | rfl
  · exact Text.exists_trimEnd ['/'] (by decide) cs
  · exact Text.exists_trimEnd [] (by decide) cs
  · exact Text.exists_trimEnd [] (by decide) cs
  · exact Text.exists_trimEnd [] (by decide) cs

theorem isComment_of_isIdle {cs : List Char} (h : IsIdle cs) : isComment cs = true := by
  obtain ⟨-, blanks, rest, rfl, blank, none | ⟨mark, known, rest', rfl⟩⟩ := h
  · rw [isComment, Text.trim_append_of_blank blank, none]
    rfl
  · obtain ⟨es, trimmed⟩ := exists_trim_mark known rest'
    rw [isComment, Text.trim_append_of_blank blank, trimmed]
    simp only [commentMarks, List.mem_cons, List.not_mem_nil, or_false] at known
    rcases known with rfl | rfl | rfl | rfl <;> rfl

/-- The line says something, and it is a line: it holds no line feed and no carriage return. -/
structure IsContent (cs : List Char) : Prop where
  feed : '\n' ∉ cs
  isReturn : '\r' ∉ cs
  isText : isComment cs = false

/-- A line with its end is read as the line, of which no more than a carriage return at its end is
lost. -/
theorem exists_lines_eq {l eol : List Char} (feed : '\n' ∉ l) (ends : eol ∈ lineEnds)
    (cs : List Char) :
    ∃ l', Text.lines (l ++ eol ++ cs) = l' :: Text.lines cs ∧ isComment l' = isComment l ∧
      ('\r' ∉ l → l' = l) := by
  simp only [lineEnds, List.mem_cons, List.not_mem_nil, or_false] at ends
  rcases ends with rfl | rfl
  · refine ⟨Text.dropReturn l, ?_, isComment_dropReturn l, Text.dropReturn_of_not_mem⟩
    rw [List.append_assoc]
    exact Text.lines_append feed cs
  · refine ⟨l, ?_, rfl, fun _ => rfl⟩
    have split : l ++ ['\r', '\n'] ++ cs = (l ++ ['\r']) ++ '\n' :: cs := by simp
    rw [split, Text.lines_append (by simpa using feed), Text.dropReturn_append_return]

/-- **Dropping comments and blank lines** leaves exactly the lines that are laid out. -/
theorem filter_lines_of_laidOut {ls : List (List Char)} {cs : List Char} (h : LaidOut ls cs)
    (content : ∀ l ∈ ls, IsContent l) :
    (Text.lines cs).filter (fun l => !isComment l) = ls := by
  -- a line that is laid out survives the filter unchanged, an idle one is dropped by it
  induction h with
  | nothing => rfl
  | lastLine l =>
    obtain ⟨feed, -, isText⟩ := content l List.mem_cons_self
    have some : l ≠ [] := by
      rintro rfl
      cases isText
    rw [Text.lines_of_not_mem feed some, List.filter_cons_of_pos (by simp [isText]), List.filter_nil]
  | @lastIdle l idle =>
    by_cases none : l = []
    · rw [none]
      rfl
    · rw [Text.lines_of_not_mem idle.1 none,
        List.filter_cons_of_neg (by simp [isComment_of_isIdle idle]), List.filter_nil]
  | @line l eol ends ls cs _ ih =>
    obtain ⟨⟨feed, isReturn, isText⟩, others⟩ := List.forall_mem_cons.1 content
    obtain ⟨l', first, -, same⟩ := exists_lines_eq feed ends cs
    rw [first, same isReturn, List.filter_cons_of_pos (by simp [isText]), ih others]
  | @idle l idle eol ends ls cs _ ih =>
    obtain ⟨l', first, kind, -⟩ := exists_lines_eq idle.1 ends cs
    rw [first, List.filter_cons_of_neg (by simp [kind, isComment_of_isIdle idle]), ih content]

/-! ## The lines of a section say something -/

namespace Name

/-- The code points that a name can begin with lie among those of the letters. -/
theorem toNat_initial (n : Name) : 65 ≤ n.initial.toNat ∧ n.initial.toNat ≤ 122 := by
  obtain letter | underscore := n.isInitial
  · rcases Bool.or_eq_true_iff.1 letter with upper | lower
    · obtain ⟨low, high⟩ := of_decide_eq_true upper
      exact ⟨low, Nat.le_trans high (by decide)⟩
    · obtain ⟨low, high⟩ := Bool.and_eq_true_iff.1 lower
      exact ⟨Nat.le_trans (by decide) (of_decide_eq_true low), of_decide_eq_true high⟩
  · rw [underscore]
    decide

theorem not_isBlank_initial (n : Name) : Text.isBlank n.initial = false := by
  obtain ⟨low, high⟩ := n.toNat_initial
  simp only [Text.isBlank, Text.blankRanges, List.any_cons, List.any_nil, Bool.or_eq_false_iff,
    Bool.and_eq_false_iff, decide_eq_false_iff_not, and_true]
  omega

/-- No character of a name ends a line. -/
theorem not_mem_chars (n : Name) {c : Char} (h : c.isAlphanum = false) (ne : c ≠ '_') :
    c ∉ n.chars := by
  intro mem
  rcases List.mem_cons.1 mem with rfl | mem
  · rcases n.isInitial with letter | underscore
    · simp [Char.isAlphanum, letter] at h
    · exact ne underscore
  · rcases n.areWords c mem with word | underscore
    · rw [h] at word
      cases word
    · exact ne underscore

/-- A line that begins with a name is no comment, whatever blanks stand before it. -/
theorem isComment_eq_false (n : Name) (blanks : List Char)
    (blank : ∀ c ∈ blanks, Text.isBlank c = true) (cs : List Char) :
    isComment (blanks ++ (n.chars ++ cs)) = false := by
  obtain ⟨es, trimmed⟩ := Text.exists_trimEnd [] n.not_isBlank_initial (n.others ++ cs)
  have trim : Text.trim (n.chars ++ cs) = n.initial :: es := by
    rw [Text.trim, Name.chars, List.cons_append, Text.trimStart_cons n.not_isBlank_initial]
    exact trimmed
  have other {c : Char} (h : c.toNat < 65) : n.initial ≠ c := by
    rintro rfl
    exact Nat.not_le_of_lt h n.toNat_initial.1
  rw [isComment, Text.trim_append_of_blank blank, trim]
  split
  · rename_i none
    cases none
  · rename_i slashes
    exact absurd (List.cons.inj slashes).1 (other (by decide))
  · rename_i first
    obtain ⟨rfl, -⟩ := List.cons.inj first
    simp [other (c := '#') (by decide), other (c := '%') (by decide), other (c := ';') (by decide)]

end Name

theorem not_mem_list (ts : List Token) {c : Char} (h : c ∈ ['\r', '\n']) :
    c ∉ Entry.list ts := by
  have outside (t : Token) : c ∉ t.chars := by
    intro mem
    refine t.isPlain c mem ?_
    simp only [List.mem_cons, List.not_mem_nil, or_false] at h ⊢
    exact .inr (.inr (.inr (.inr h)))
  have behind (us : List Token) : c ∉ Entry.further us := by
    rw [Entry.further, List.mem_flatMap]
    rintro ⟨u, -, mem⟩
    simp only [List.mem_cons, List.not_mem_nil, or_false, outside u] at h mem
    rcases h with rfl | rfl <;> simp at mem
  cases ts with
  | nil => exact List.not_mem_nil
  | cons t ts => exact List.not_mem_append (outside t) (behind ts)

theorem isContent_title (n : Name) : IsContent n.chars where
  feed := n.not_mem_chars (by decide) (by decide)
  isReturn := n.not_mem_chars (by decide) (by decide)
  isText := by
    have isText := n.isComment_eq_false [] (List.forall_mem_nil _) []
    rwa [List.nil_append, List.append_nil] at isText

theorem isContent_line (e : Entry) : IsContent e.line where
  feed := by
    have key := e.key.not_mem_chars (c := '\n') (by decide) (by decide)
    have values := not_mem_list e.values (c := '\n') (by decide)
    simp [Entry.line, Entry.body, key, values]
  isReturn := by
    have key := e.key.not_mem_chars (c := '\r') (by decide) (by decide)
    have values := not_mem_list e.values (c := '\r') (by decide)
    simp [Entry.line, Entry.body, key, values]
  isText := e.key.isComment_eq_false [' '] (List.forall_mem_singleton.2 (by decide)) _

/-- **The lines of sections** all say something. -/
theorem isContent_of_mem_lines {ss : List Section} {l : List Char}
    (h : l ∈ ss.flatMap Section.lines) : IsContent l := by
  obtain ⟨s, -, hl⟩ := List.mem_flatMap.1 h
  rcases List.mem_cons.1 hl with rfl | hl
  · exact isContent_title s.title
  · obtain ⟨e, -, rfl⟩ := List.mem_map.1 hl
    exact isContent_line e

end Draft

end CurvePuzzle
