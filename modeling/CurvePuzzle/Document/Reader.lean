import CurvePuzzle.Document.Basic
import CurvePuzzle.Text.Blank
import CurvePuzzle.Text.Lines
import CurvePuzzle.Text.Quoted

/-!
# Reading documents

Comment lines and blank lines are dropped first. A section is a title and one or more entries; an
entry is a key, a colon and values with commas between them, possibly none. Titles and keys are
identifiers. White space ends an entry, so a section may share its lines with others.

* Every reader takes the text from some place on. It gives what it read and the text behind it, or
  the text from the place on where it found something else.
* `entries` and `sections` read on as long as they can; what stops them is left for the caller.
* `Document.read` is the whole; `DocumentError` says what is wrong with a text.
-/

set_option autoImplicit false

namespace CurvePuzzle

/-- What is wrong with the text of a document. -/
inductive DocumentError where
  /-- No section begins with this text. -/
  | malformed (rest : List Char)
  /-- After some sections this text remains. -/
  | leftover (rest : List Char)
  | repeatedSection (title : String)

/-- The words for it. -/
def DocumentError.message : DocumentError → String
  | malformed rest =>
    "Parsing error: Error(Error \x7b input: " ++ String.ofList (Text.quoted rest) ++
      ", code: Tag \x7d)"
  | leftover rest => "Failed to parse entire document. Remaining: '" ++ String.ofList rest ++ "'"
  | repeatedSection title => "section '" ++ title ++ "' appears twice"

namespace Document

/-- What a reader gives: a value and the text behind it, or the text where it failed. -/
abbrev Read (β : Type) := Except (List Char) (β × List Char)

/-- A blank within a line. -/
def isSpace (c : Char) : Bool := c == ' ' || c == '\t'

/-- A blank within a line, or a line end. -/
def isGap (c : Char) : Bool := isSpace c || c == '\r' || c == '\n'

/-- Can an identifier begin with the character? -/
def isInitial (c : Char) : Bool := c.isAlpha || c == '_'

/-- Can an identifier go on with the character? -/
def isWord (c : Char) : Bool := c.isAlphanum || c == '_'

/-- Does the character belong to a value? -/
def isToken (c : Char) : Bool := !(c == ',' || c == ';' || isGap c)

/-- A title or a key. -/
def identifier : List Char → Read String
  | [] => .error []
  | c :: cs =>
    if isInitial c then .ok (String.ofList (c :: cs.takeWhile isWord), cs.dropWhile isWord)
    else .error (c :: cs)

/-- A mark with blanks around it. -/
def mark (m : Char) (cs : List Char) : Read Unit :=
  match cs.dropWhile isSpace with
  | c :: rest => if c == m then .ok ((), rest.dropWhile isSpace) else .error (c :: rest)
  | [] => .error []

/-- A value, if one begins here. -/
def token? : List Char → Option (Value × List Char)
  | [] => none
  | c :: cs =>
    if isToken c then some (.ofToken (c :: cs.takeWhile isToken), cs.dropWhile isToken) else none

/-- A comma and a value behind it, if they come next. -/
def furtherToken? (cs : List Char) : Option (Value × List Char) :=
  match mark ',' cs with
  | .ok (_, rest) => token? rest
  | .error _ => none

theorem dropWhile_length_le (p : Char → Bool) (cs : List Char) :
    (cs.dropWhile p).length ≤ cs.length :=
  (List.dropWhile_suffix p).length_le

theorem identifier_length {cs rest : List Char} {s : String} (h : identifier cs = .ok (s, rest)) :
    rest.length < cs.length := by
  unfold identifier at h
  split at h
  · simp at h
  · rename_i c cs
    split at h
    · obtain ⟨-, rfl⟩ := Prod.mk.inj (Except.ok.inj h)
      have := dropWhile_length_le isWord cs
      simp only [List.length_cons]; omega
    · simp at h

theorem mark_length {m : Char} {cs rest : List Char} {u : Unit} (h : mark m cs = .ok (u, rest)) :
    rest.length < cs.length := by
  have all := dropWhile_length_le isSpace cs
  unfold mark at h
  split at h
  · rename_i c tail e
    split at h
    · obtain ⟨-, rfl⟩ := Prod.mk.inj (Except.ok.inj h)
      have := dropWhile_length_le isSpace tail
      rw [e] at all
      simp only [List.length_cons] at all; omega
    · simp at h
  · simp at h

theorem token?_length {cs rest : List Char} {v : Value} (h : token? cs = some (v, rest)) :
    rest.length < cs.length := by
  unfold token? at h
  split at h
  · simp at h
  · rename_i c cs
    split at h
    · obtain ⟨-, rfl⟩ := Prod.mk.inj (Option.some.inj h)
      have := dropWhile_length_le isToken cs
      simp only [List.length_cons]; omega
    · simp at h

theorem furtherToken?_length {cs rest : List Char} {v : Value}
    (h : furtherToken? cs = some (v, rest)) : rest.length < cs.length := by
  unfold furtherToken? at h
  split at h
  · rename_i u tail e
    have := mark_length e
    have := token?_length h
    omega
  · simp at h

/-- The values behind a first one. -/
def furtherValues (cs : List Char) : List Value × List Char :=
  match _h : furtherToken? cs with
  | some (v, rest) =>
    let (vs, rest) := furtherValues rest
    (v :: vs, rest)
  | none => ([], cs)
termination_by cs.length
decreasing_by exact furtherToken?_length _h

/-- The values of a key; there may be none. -/
def values (cs : List Char) : List Value × List Char :=
  match token? cs with
  | some (v, rest) =>
    let (vs, rest) := furtherValues rest
    (v :: vs, rest)
  | none => ([], cs)

/-- A key with its values, and the white space behind them. -/
def entry (cs : List Char) : Read (String × List Value) :=
  match identifier cs with
  | .error place => .error place
  | .ok (key, rest) =>
    match mark ':' rest with
    | .error place => .error place
    | .ok (_, rest) =>
      let found := values rest
      .ok ((key, found.1), Text.trimStart found.2)

theorem furtherValues_length (cs : List Char) : (furtherValues cs).2.length ≤ cs.length := by
  fun_induction furtherValues cs with
  | case1 cs v rest h vs rest' e ih =>
    have := furtherToken?_length h
    rw [e] at ih
    simp only at ih ⊢; omega
  | case2 cs h => exact Nat.le_refl _

theorem values_length (cs : List Char) : (values cs).2.length ≤ cs.length := by
  unfold values
  split
  · rename_i v rest h
    have := token?_length h
    have := furtherValues_length rest
    simp only; omega
  · exact Nat.le_refl _

theorem entry_length {cs rest : List Char} {e : String × List Value}
    (h : entry cs = .ok (e, rest)) : rest.length < cs.length := by
  unfold entry at h
  split at h
  · simp at h
  · rename_i key afterKey hk
    split at h
    · simp at h
    · rename_i u afterMark hm
      obtain ⟨-, rfl⟩ := Prod.mk.inj (Except.ok.inj h)
      have := identifier_length hk
      have := mark_length hm
      have := values_length afterMark
      have := dropWhile_length_le Text.isBlank (values afterMark).2
      unfold Text.trimStart
      omega

/-- As many entries as follow one another. -/
def entries (cs : List Char) : List (String × List Value) × List Char :=
  match _h : entry cs with
  | .ok (e, rest) =>
    let (es, rest) := entries rest
    (e :: es, rest)
  | .error _ => ([], cs)
termination_by cs.length
decreasing_by exact entry_length _h

/-- A section: its title and at least one entry. -/
def readSection (cs : List Char) : Read (String × Section) :=
  match identifier (cs.dropWhile isSpace) with
  | .error place => .error place
  | .ok (title, rest) =>
    match entry (rest.dropWhile isGap) with
    | .error place => .error place
    | .ok (first, rest) =>
      let (es, rest) := entries rest
      .ok ((title, Section.ofEntries (first :: es)), rest)

theorem entries_length (cs : List Char) : (entries cs).2.length ≤ cs.length := by
  fun_induction entries cs with
  | case1 cs e rest h es rest' eq ih =>
    have := entry_length h
    rw [eq] at ih
    simp only at ih ⊢; omega
  | case2 cs place h => exact Nat.le_refl _

theorem readSection_length {cs rest : List Char} {s : String × Section}
    (h : readSection cs = .ok (s, rest)) : rest.length < cs.length := by
  unfold readSection at h
  split at h
  · simp at h
  · rename_i title afterTitle ht
    split at h
    · simp at h
    · rename_i first afterFirst hf
      obtain ⟨-, rfl⟩ := Prod.mk.inj (Except.ok.inj h)
      have := identifier_length ht
      have := dropWhile_length_le isSpace cs
      have := entry_length hf
      have := dropWhile_length_le isGap afterTitle
      have := entries_length afterFirst
      omega

/-- As many sections as follow one another. -/
def sections (cs : List Char) : Document × List Char :=
  match _h : readSection cs with
  | .ok (s, rest) =>
    let (ss, rest) := sections rest
    (s :: ss, rest)
  | .error _ => ([], cs)
termination_by cs.length
decreasing_by exact readSection_length _h

/-- Is the line blank or a comment? -/
def isComment (line : List Char) : Bool :=
  match Text.trim line with
  | [] => true
  | '/' :: '/' :: _ => true
  | c :: _ => c == '#' || c == '%' || c == ';'

/-- The text without comment lines and blank lines. -/
def withoutComments (cs : List Char) : List Char :=
  Text.joinLines ((Text.lines cs).filter fun line => !isComment line)

/-- The first title that some earlier section has. -/
def repeatedTitle? (seen : List String) : Document → Option String
  | [] => none
  | (title, _) :: ss =>
    if seen.contains title then some title else repeatedTitle? (title :: seen) ss

/-- The document that a text without comments stands for. -/
def readSections (cs : List Char) : Except DocumentError Document :=
  match readSection cs with
  | .error place => .error (.malformed place)
  | .ok (first, rest) =>
    let (others, rest) := sections rest
    if !Text.allBlank rest then .error (.leftover rest)
    else
      match repeatedTitle? [] (first :: others) with
      | some title => .error (.repeatedSection title)
      | none => .ok (first :: others)

/-- The document that a text stands for. -/
def read (text : String) : Except DocumentError Document :=
  let cs := withoutComments text.toList
  if Text.allBlank cs then .ok [] else readSections cs

end Document

end CurvePuzzle
