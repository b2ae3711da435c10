import Mathlib.Data.List.Forall2
import Mathlib.Data.List.Induction
import CurvePuzzle.Document.Reader

/-!
# A document is a map

A document lists its sections, and a section lists its keys. What is read from a text has every
title once and every key of a section once, so the order of a list is no part of what it says.

* `Section.lookup_ofEntries`: the last values given to a key stay.
* `Document.IsMap`: titles and keys occur once; `isMap_of_read`: so it is with every document that
  is read.
* `repeatedTitle?_eq_none_iff`, `repeatedOf_of_repeatedTitle?`: which title is found to be repeated.
* `Document.Gives`: what a document says; `IsMap.values?_eq_some_iff`: looking it up finds it, and
  `Rearranged.gives_iff`: another order says the same.
-/

set_option autoImplicit false

namespace CurvePuzzle

/-! ## Lists with keys -/

namespace Keyed

variable {α : Type} {l : List (String × α)}

theorem lookup_cons (key : String) (e : String × α) (l : List (String × α)) :
    List.lookup key (e :: l) = if key = e.1 then some e.2 else l.lookup key := by
  rw [List.lookup_cons]
  by_cases here : key = e.1
  · rw [if_pos here, beq_iff_eq.2 here]
  · rw [if_neg here, beq_eq_false_iff_ne.2 here]

theorem lookup_eq_none (key : String) (fresh : key ∉ l.map Prod.fst) : l.lookup key = none := by
  induction l with
  | nil => rfl
  | cons e l ih =>
    obtain ⟨other, rest⟩ := not_or.1 (mt List.mem_cons.2 fresh)
    rw [lookup_cons, if_neg other, ih rest]

/-- Looking up a key finds nothing, or what entries with this key hold. -/
theorem lookup_cases {P : String → α → Prop} (holds : ∀ e ∈ l, P e.1 e.2) (key : String) :
    (l.lookup key = none ∧ key ∉ l.map Prod.fst) ∨ ∃ a, l.lookup key = some a ∧ P key a := by
  induction l with
  | nil => exact .inl ⟨rfl, List.not_mem_nil⟩
  | cons e l ih =>
    obtain ⟨first, others⟩ := List.forall_mem_cons.1 holds
    rw [lookup_cons, List.map_cons, List.mem_cons]
    by_cases here : key = e.1
    · subst here
      exact .inr ⟨e.2, if_pos rfl, first⟩
    · simpa only [here, if_false, false_or] using ih others

/-- Where keys occur once, looking up a key finds all there is. -/
theorem lookup_eq_some_iff (nodup : (l.map Prod.fst).Nodup) {key : String} {a : α} :
    l.lookup key = some a ↔ (key, a) ∈ l := by
  induction l with
  | nil => simp
  | cons e l ih =>
    obtain ⟨fresh, rest⟩ := List.nodup_cons.1 nodup
    rw [lookup_cons, List.mem_cons, ← ih rest]
    by_cases here : key = e.1
    · subst here
      rw [if_pos rfl, lookup_eq_none e.1 fresh, Option.some_inj]
      simp [Prod.ext_iff, eq_comm]
    · rw [if_neg here]
      simp [Prod.ext_iff, here]

end Keyed

/-! ## Sections -/

namespace Section

theorem lookup_put (key k : String) (values : List Value) (s : Section) :
    (s.put k values).lookup key = if key = k then some values else s.lookup key := by
  induction s with
  | nil => exact Keyed.lookup_cons key (k, values) []
  | cons e s ih =>
    obtain ⟨k', old⟩ := e
    rw [put]
    split
    · rename_i same
      obtain rfl := eq_of_beq same
      rw [Keyed.lookup_cons, Keyed.lookup_cons]
      split <;> rfl
    · rename_i other
      rw [Keyed.lookup_cons, Keyed.lookup_cons, ih]
      split
      · rename_i here
        have ne : ¬key = k := fun h => other (beq_iff_eq.2 (here.symm.trans h))
        rw [if_neg ne]
      · rfl

theorem mem_keys_put {key k : String} {values : List Value} {s : Section} :
    key ∈ (s.put k values).map Prod.fst ↔ key = k ∨ key ∈ s.map Prod.fst := by
  induction s with
  | nil => simp [put]
  | cons e s ih =>
    obtain ⟨k', old⟩ := e
    rw [put]
    split
    · rename_i same
      obtain rfl := eq_of_beq same
      simp
    · simp only [List.map_cons, List.mem_cons, ih]
      exact or_left_comm

theorem nodup_put {s : Section} (h : (s.map Prod.fst).Nodup) (k : String) (values : List Value) :
    ((s.put k values).map Prod.fst).Nodup := by
  induction s with
  | nil => simp [put]
  | cons e s ih =>
    obtain ⟨k', old⟩ := e
    obtain ⟨fresh, rest⟩ := List.nodup_cons.1 h
    rw [put]
    split
    · exact h
    · rename_i other
      refine List.nodup_cons.2 ⟨?_, ih rest⟩
      rw [mem_keys_put]
      rintro (same | old)
      · exact other (by simp [show k' = k from same])
      · exact fresh old

theorem mem_put {e : String × List Value} {k : String} {values : List Value} {s : Section}
    (h : e ∈ s.put k values) : e = (k, values) ∨ e ∈ s := by
  induction s with
  | nil => exact .inl (List.mem_singleton.1 h)
  | cons old s ih =>
    rw [put] at h
    split at h
    · rename_i same
      rcases List.mem_cons.1 h with here | there
      · exact .inl (here.trans (congrArg (·, values) (eq_of_beq same)))
      · exact .inr (List.mem_cons_of_mem _ there)
    · rcases List.mem_cons.1 h with rfl | there
      · exact .inr List.mem_cons_self
      · exact (ih there).imp_right (List.mem_cons_of_mem _)

theorem ofEntries_append (es : List (String × List Value)) (e : String × List Value) :
    ofEntries (es ++ [e]) = (ofEntries es).put e.1 e.2 := by
  rw [ofEntries, List.foldl_append]
  rfl

/-- **The last values of a key stay.** -/
theorem lookup_ofEntries (key : String) (es : List (String × List Value)) :
    (ofEntries es).lookup key = es.reverse.lookup key := by
  induction es using List.reverseRecOn with
  | nil => rfl
  | append_singleton es e ih =>
    rw [ofEntries_append, lookup_put, ih, List.reverse_append, List.reverse_singleton,
      List.singleton_append, Keyed.lookup_cons]

theorem nodup_ofEntries (es : List (String × List Value)) :
    ((ofEntries es).map Prod.fst).Nodup := by
  induction es using List.reverseRecOn with
  | nil => exact List.nodup_nil
  | append_singleton es e ih =>
    rw [ofEntries_append]
    exact nodup_put ih _ _

theorem mem_of_mem_ofEntries {e : String × List Value} {es : List (String × List Value)}
    (h : e ∈ ofEntries es) : e ∈ es := by
  induction es using List.reverseRecOn with
  | nil => exact h
  | append_singleton es e' ih =>
    rw [ofEntries_append] at h
    rcases mem_put h with rfl | old
    · exact List.mem_append_right _ List.mem_cons_self
    · exact List.mem_append_left _ (ih old)

end Section

/-! ## Documents -/

namespace Document

/-- Every title of the document occurs once, and so does every key of a section. -/
structure IsMap (d : Document) : Prop where
  titles : (d.map Prod.fst).Nodup
  keys : ∀ s ∈ d, (s.2.map Prod.fst).Nodup

/-- The title is the first one in the row that stands there a second time. -/
def RepeatedOf (titles : List String) (title : String) : Prop :=
  ∃ before after, titles = before ++ title :: after ∧ title ∈ before ∧ before.Nodup

theorem repeatedTitle?_eq_none_iff {seen : List String} {d : Document} :
    repeatedTitle? seen d = none ↔
      (d.map Prod.fst).Nodup ∧ ∀ title ∈ d.map Prod.fst, title ∉ seen := by
  induction d generalizing seen with
  | nil => simp [repeatedTitle?]
  | cons s d ih =>
    obtain ⟨title, entries⟩ := s
    rw [repeatedTitle?, List.map_cons, List.nodup_cons, List.forall_mem_cons]
    by_cases known : title ∈ seen
    · simp [known]
    · have unknown : seen.contains title = false := by simpa using known
      rw [unknown, if_neg Bool.false_ne_true, ih]
      constructor
      · rintro ⟨nodup, others⟩
        exact ⟨⟨fun h => others title h List.mem_cons_self, nodup⟩, known,
          fun t ht hs => others t ht (List.mem_cons_of_mem _ hs)⟩
      · rintro ⟨⟨fresh, nodup⟩, -, others⟩
        refine ⟨nodup, fun t ht hs => ?_⟩
        rcases List.mem_cons.1 hs with rfl | hs
        · exact fresh ht
        · exact others t ht hs

/-- What is found to be repeated is the first title that was seen before. -/
theorem exists_of_repeatedTitle? {seen : List String} {d : Document} {title : String}
    (h : repeatedTitle? seen d = some title) :
    ∃ before after, d.map Prod.fst = before ++ title :: after ∧
      (title ∈ seen ∨ title ∈ before) ∧ before.Nodup ∧ ∀ t ∈ before, t ∉ seen := by
  induction d generalizing seen with
  | nil => cases h
  | cons s d ih =>
    obtain ⟨first, entries⟩ := s
    rw [repeatedTitle?] at h
    split at h
    · rename_i known
      obtain rfl := Option.some.inj h
      exact ⟨[], d.map Prod.fst, rfl, .inl (by simpa using known), List.nodup_nil,
        List.forall_mem_nil _⟩
    · rename_i unknown
      obtain ⟨before, after, split, found, nodup, fresh⟩ := ih h
      refine ⟨first :: before, after, by rw [List.map_cons, split]; rfl, ?_, ?_, ?_⟩
      · rcases found with found | found
        · rcases List.mem_cons.1 found with rfl | found
          · exact .inr List.mem_cons_self
          · exact .inl found
        · exact .inr (List.mem_cons_of_mem _ found)
      · exact List.nodup_cons.2 ⟨fun h => fresh first h List.mem_cons_self, nodup⟩
      · exact List.forall_mem_cons.2
          ⟨by simpa using unknown, fun t ht hs => fresh t ht (List.mem_cons_of_mem _ hs)⟩

theorem repeatedOf_of_repeatedTitle? {d : Document} {title : String}
    (h : repeatedTitle? [] d = some title) : RepeatedOf (d.map Prod.fst) title := by
  obtain ⟨before, after, split, found, nodup, -⟩ := exists_of_repeatedTitle? h
  exact ⟨before, after, split, found.resolve_left List.not_mem_nil, nodup⟩

/-! ## What is read -/

/-- A section that is read has a first entry, and all that follow it. -/
theorem exists_entries_of_readSection {cs rest : List Char} {s : String × Section}
    (h : readSection cs = .ok (s, rest)) :
    ∃ start first behind, entry start = .ok (first, behind) ∧
      s.2 = Section.ofEntries (first :: (entries behind).1) := by
  unfold readSection at h
  split at h
  · cases h
  · split at h
    · cases h
    · rename_i first behind one
      obtain ⟨rfl, -⟩ := Prod.mk.inj (Except.ok.inj h)
      exact ⟨_, first, behind, one, rfl⟩

theorem nodup_of_readSection {cs rest : List Char} {s : String × Section}
    (h : readSection cs = .ok (s, rest)) : (s.2.map Prod.fst).Nodup := by
  obtain ⟨start, first, behind, -, sections⟩ := exists_entries_of_readSection h
  rw [sections]
  exact Section.nodup_ofEntries _

/-- A document that is read is empty, or one section and all that follow it. -/
theorem read_cases {text : String} {d : Document} (h : read text = .ok d) :
    d = [] ∨ repeatedTitle? [] d = none ∧
      ∃ cs s rest, readSection cs = .ok (s, rest) ∧ d = s :: (sections rest).1 := by
  unfold read at h
  simp only at h
  split at h
  · exact .inl (Except.ok.inj h).symm
  · unfold readSections at h
    split at h
    · cases h
    · rename_i first rest one
      simp only at h
      split at h
      · cases h
      · split at h
        · cases h
        · rename_i unrepeated
          obtain rfl := Except.ok.inj h
          exact .inr ⟨unrepeated, _, first, rest, one, rfl⟩

section Each

variable {P : String × Section → Prop}
  (each : ∀ {cs rest : List Char} {s : String × Section}, readSection cs = .ok (s, rest) → P s)

include each

theorem forall_mem_sections (cs : List Char) : ∀ s ∈ (sections cs).1, P s := by
  fun_induction sections cs with
  | case1 cs s rest h ss rest' e ih =>
    rw [e] at ih
    exact List.forall_mem_cons.2 ⟨each h, ih⟩
  | case2 cs place h => exact List.forall_mem_nil _

/-- What holds of every section that is read holds of the sections of every document. -/
theorem forall_mem_of_read {text : String} {d : Document} (h : read text = .ok d) :
    ∀ s ∈ d, P s := by
  obtain rfl | ⟨-, cs, s, rest, one, rfl⟩ := read_cases h
  · exact List.forall_mem_nil _
  · exact List.forall_mem_cons.2 ⟨each one, forall_mem_sections each rest⟩

end Each

/-- **What is read is a map.** -/
theorem isMap_of_read {text : String} {d : Document} (h : read text = .ok d) : d.IsMap where
  titles := by
    obtain rfl | ⟨unrepeated, -⟩ := read_cases h
    · exact List.nodup_nil
    · exact (repeatedTitle?_eq_none_iff.1 unrepeated).1
  keys := forall_mem_of_read nodup_of_readSection h

/-! ## Values -/

/-- Some token stands for the value. -/
def IsRead (v : Value) : Prop := ∃ cs, v = .ofToken cs

theorem isRead_of_token? {cs rest : List Char} {v : Value} (h : token? cs = some (v, rest)) :
    IsRead v := by
  unfold token? at h
  split at h
  · cases h
  · split at h
    · obtain ⟨rfl, -⟩ := Prod.mk.inj (Option.some.inj h)
      exact ⟨_, rfl⟩
    · cases h

theorem isRead_of_furtherToken? {cs rest : List Char} {v : Value}
    (h : furtherToken? cs = some (v, rest)) : IsRead v := by
  unfold furtherToken? at h
  split at h
  · exact isRead_of_token? h
  · cases h

theorem isRead_of_mem_furtherValues (cs : List Char) : ∀ v ∈ (furtherValues cs).1, IsRead v := by
  fun_induction furtherValues cs with
  | case1 cs v rest h vs rest' e ih =>
    rw [e] at ih
    exact List.forall_mem_cons.2 ⟨isRead_of_furtherToken? h, ih⟩
  | case2 cs h => exact List.forall_mem_nil _

theorem isRead_of_mem_values (cs : List Char) : ∀ v ∈ (values cs).1, IsRead v := by
  unfold values
  split
  · rename_i v rest h
    exact List.forall_mem_cons.2 ⟨isRead_of_token? h, isRead_of_mem_furtherValues rest⟩
  · exact List.forall_mem_nil _

theorem isRead_of_entry {cs rest : List Char} {e : String × List Value}
    (h : entry cs = .ok (e, rest)) : ∀ v ∈ e.2, IsRead v := by
  unfold entry at h
  split at h
  · cases h
  · split at h
    · cases h
    · obtain ⟨rfl, -⟩ := Prod.mk.inj (Except.ok.inj h)
      exact isRead_of_mem_values _

theorem isRead_of_mem_entries (cs : List Char) :
    ∀ e ∈ (entries cs).1, ∀ v ∈ e.2, IsRead v := by
  fun_induction entries cs with
  | case1 cs e rest h es rest' eq ih =>
    rw [eq] at ih
    exact List.forall_mem_cons.2 ⟨isRead_of_entry h, ih⟩
  | case2 cs place h => exact List.forall_mem_nil _

theorem isRead_of_readSection {cs rest : List Char} {s : String × Section}
    (h : readSection cs = .ok (s, rest)) : ∀ e ∈ s.2, ∀ v ∈ e.2, IsRead v := by
  obtain ⟨start, first, behind, one, sections⟩ := exists_entries_of_readSection h
  intro e he
  rw [sections] at he
  rcases List.mem_cons.1 (Section.mem_of_mem_ofEntries he) with rfl | he
  · exact isRead_of_entry one
  · exact isRead_of_mem_entries behind e he

/-- **All values of a document** are those of tokens. -/
theorem isRead_of_read {text : String} {d : Document} (h : read text = .ok d) :
    ∀ s ∈ d, ∀ e ∈ s.2, ∀ v ∈ e.2, IsRead v :=
  forall_mem_of_read isRead_of_readSection h

/-- Integers in a document fit 64 bits. -/
theorem integer_le_of_isRead {i : Int} (h : IsRead (.integer i)) :
    i ≤ Int64.maxValue.toInt := by
  obtain ⟨cs, h⟩ := h
  rw [Value.ofToken] at h
  split at h
  · rename_i j reads
    obtain rfl := Value.integer.inj h
    obtain ⟨-, range⟩ := Option.filter_eq_some_iff.1 reads
    exact (of_decide_eq_true range).2
  · split at h
    · cases h
    · split at h
      · cases h
      · split at h <;> cases h

/-! ## What a document says -/

/-- The document has a section of this title that gives the key these values. -/
def Gives (d : Document) (title key : String) (values : List Value) : Prop :=
  ∃ s, (title, s) ∈ d ∧ (key, values) ∈ s

/-- The values of a key in the section of this title. -/
def values? (d : Document) (title key : String) : Option (List Value) :=
  (d.lookup title).bind (·.lookup key)

theorem IsMap.values?_eq_some_iff {d : Document} (h : d.IsMap) {title key : String}
    {values : List Value} : d.values? title key = some values ↔ d.Gives title key values := by
  rw [values?, Option.bind_eq_some_iff]
  refine exists_congr fun s => ?_
  rw [Keyed.lookup_eq_some_iff h.titles]
  exact and_congr_right fun mem => Keyed.lookup_eq_some_iff (h.keys _ mem)

/-- The two sections have the same title and the same keys in some order. -/
def SameSection (s s' : String × Section) : Prop := s.1 = s'.1 ∧ s.2.Perm s'.2

/-- The same sections in some order, each with the same keys in some order. -/
def Rearranged (d d' : Document) : Prop := ∃ mid, d.Perm mid ∧ List.Forall₂ SameSection mid d'

namespace Rearranged

variable {d d' : Document}

theorem titles (h : Rearranged d d') : (d.map Prod.fst).Perm (d'.map Prod.fst) := by
  obtain ⟨mid, moved, within⟩ := h
  have same : mid.map Prod.fst = d'.map Prod.fst := by
    rw [← List.forall₂_eq_eq_eq, List.forall₂_map_left_iff, List.forall₂_map_right_iff]
    exact within.imp fun s s' both => both.1
  rw [← same]
  exact moved.map _

theorem exists_of_forall₂ {R : String × Section → String × Section → Prop} {l l' : Document}
    (within : List.Forall₂ R l l') : ∀ s' ∈ l', ∃ s ∈ l, R s s' := by
  induction within with
  | nil => exact List.forall_mem_nil _
  | cons same _ ih =>
    refine List.forall_mem_cons.2 ⟨⟨_, List.mem_cons_self, same⟩, fun s' mem => ?_⟩
    obtain ⟨s, mem, same⟩ := ih s' mem
    exact ⟨s, List.mem_cons_of_mem _ mem, same⟩

/-- **Another order says the same.** -/
theorem gives_iff (h : Rearranged d d') {title key : String} {values : List Value} :
    d'.Gives title key values ↔ d.Gives title key values := by
  obtain ⟨mid, moved, within⟩ := h
  constructor
  · rintro ⟨s', mem, given⟩
    obtain ⟨⟨title, s⟩, there, rfl, same⟩ := exists_of_forall₂ within _ mem
    exact ⟨s, moved.mem_iff.2 there, same.mem_iff.2 given⟩
  · rintro ⟨s, mem, given⟩
    have back : List.Forall₂ (flip SameSection) d' mid := within.flip
    obtain ⟨⟨title', s'⟩, there, rfl, same⟩ := exists_of_forall₂ back _ (moved.mem_iff.1 mem)
    exact ⟨s', there, same.mem_iff.1 given⟩

theorem isMap (h : Rearranged d d') (map : d.IsMap) : d'.IsMap where
  titles := h.titles.nodup_iff.1 map.titles
  keys s' mem := by
    obtain ⟨mid, moved, within⟩ := h
    obtain ⟨s, mem, -, same⟩ := exists_of_forall₂ within s' mem
    exact (same.map _).nodup_iff.1 (map.keys s (moved.mem_iff.2 mem))

/-- What is looked up does not depend on the order. -/
theorem values?_eq (h : Rearranged d d') (map : d.IsMap) : d'.values? = d.values? := by
  funext title key
  refine Option.ext fun values => ?_
  rw [(h.isMap map).values?_eq_some_iff, map.values?_eq_some_iff, h.gives_iff]

end Rearranged

end Document

end CurvePuzzle
