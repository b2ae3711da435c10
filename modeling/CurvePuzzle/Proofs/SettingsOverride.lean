import CurvePuzzle.Proofs.DocumentMap
import CurvePuzzle.Proofs.TracedRuns
import CurvePuzzle.Settings.Document

/-!
# Documents override settings

The sections of a document are applied one after the other, and each of them key by key, until one
is refused. As a document that is read is a map, no setting is overridden twice, and the order in
which this is done does not matter.

* `Settings.Fits`: the keys that a section knows, and the one value that each of them takes.
* `Settings.overriddenBy`: the settings with all given values in place; `setters_cases`: every key
  that a section knows overrides its own setting.
* `put_eq_ok_iff`: what one key does; `override_eq_ok_iff`: what a whole document does.
* `Settings.ofTextIn_eq_ok_iff`: **in whatever order**, a text gives settings exactly when its
  document fits and the overridden settings are valid, and then it gives these.
-/

set_option autoImplicit false

namespace CurvePuzzle

namespace Settings

/-! ## What fits -/

/-- The keys of a section that take a number. -/
def numberKeys : String → List String
  | "tracer" => ["x_start", "x_end", "y_limit", "large_increment", "small_increment",
      "min_distance_squared", "max_distance_squared"]
  | "layout" => ["x_min", "x_max", "y_min", "y_max"]
  | _ => []

/-- The keys of a section that take a count. -/
def countKeys : String → List String
  | "layout" => ["good_dots", "bad_dots"]
  | "game" => ["seed"]
  | _ => []

/-- The section knows the key, and this is one value of its kind: a number, or an integer that is
not negative. -/
inductive Fits (title key : String) : List Value → Prop where
  | float (known : key ∈ numberKeys title) (x : Float) : Fits title key [.float x]
  | integer (known : key ∈ numberKeys title) (i : Int) : Fits title key [.integer i]
  | count (known : key ∈ countKeys title) (n : Nat) : Fits title key [.integer n]

/-- Every section is known, and fits with all its keys. -/
structure Accepts (d : Document) : Prop where
  titles : ∀ title ∈ d.map Prod.fst, title ∈ ["tracer", "layout", "game"]
  values : ∀ {title key : String} {values : List Value}, Document.Gives d title key values →
    Fits title key values

/-! ## What is overridden -/

/-- The value that is given, if it is one and can be read, or else the old one. -/
def givenOr {α : Type} (read : Value → Option α) (old : α) : Option (List Value) → α
  | some [v] => (read v).getD old
  | _ => old

/-- The number that is given. -/
def numberOr : Float → Option (List Value) → Float := givenOr Value.asFloat?

/-- The count that is given. -/
def countOr : Nat → Option (List Value) → Nat := givenOr fun v => v.asInteger?.map Int.toNat

/-- The seed that is given. -/
def seedOr : UInt64 → Option (List Value) → UInt64 :=
  givenOr fun v => v.asInteger?.map fun i => UInt64.ofNat i.toNat

/-- The settings with the values that are given for the keys of sections. -/
def overriddenBy (s : Settings) (given : String → String → Option (List Value)) : Settings :=
  { window :=
      { xStart := numberOr s.window.xStart (given "tracer" "x_start")
        xEnd := numberOr s.window.xEnd (given "tracer" "x_end")
        yLimit := numberOr s.window.yLimit (given "tracer" "y_limit") }
    sampling :=
      { s.sampling with
        largeIncrement := numberOr s.sampling.largeIncrement (given "tracer" "large_increment")
        smallIncrement := numberOr s.sampling.smallIncrement (given "tracer" "small_increment")
        minDistanceSquared :=
          numberOr s.sampling.minDistanceSquared (given "tracer" "min_distance_squared")
        maxDistanceSquared :=
          numberOr s.sampling.maxDistanceSquared (given "tracer" "max_distance_squared") }
    goodDots := countOr s.goodDots (given "layout" "good_dots")
    badDots := countOr s.badDots (given "layout" "bad_dots")
    area :=
      { xMin := numberOr s.area.xMin (given "layout" "x_min")
        xMax := numberOr s.area.xMax (given "layout" "x_max")
        yMin := numberOr s.area.yMin (given "layout" "y_min")
        yMax := numberOr s.area.yMax (given "layout" "y_max") }
    seed := seedOr s.seed (given "game" "seed") }

theorem overriddenBy_nothing (s : Settings) : (s.overriddenBy fun _ _ => none) = s := rfl

theorem givenOr_givenOr {α : Type} (read : Value → Option α) (old : α)
    {f g : Option (List Value)} (disjoint : f = none ∨ g = none) :
    givenOr read (givenOr read old f) g = givenOr read old (f.or g) := by
  rcases disjoint with rfl | rfl
  · rw [Option.none_or]; rfl
  · rw [Option.or_none]; rfl

/-- Overriding twice, and nothing twice, is overriding once. -/
theorem overriddenBy_overriddenBy (s : Settings) {f g : String → String → Option (List Value)}
    (disjoint : ∀ title key, f title key = none ∨ g title key = none) :
    (s.overriddenBy f).overriddenBy g =
      s.overriddenBy fun title key => (f title key).or (g title key) := by
  simp only [overriddenBy, numberOr, countOr, seedOr, givenOr_givenOr _ _ (disjoint _ _)]

/-- Values for one key only. -/
def only (title key : String) (values : List Value) (title' key' : String) :
    Option (List Value) :=
  if title' = title ∧ key' = key then some values else none

/-! ## One key -/

theorem number_eq_ok_iff {title key : String} {values : List Value} {x : Float} :
    number title key values = .ok x ↔ ∃ v, values = [v] ∧ v.asFloat? = some x := by
  rcases values with _ | ⟨v, _ | ⟨w, vs⟩⟩
  · simp [number, single]
  · simp only [number, single, List.cons.injEq, and_true, exists_eq_left']
    split <;> simp_all
  · simp [number, single]

theorem count_eq_ok_iff {title key : String} {values : List Value} {n : Nat} :
    count title key values = .ok n ↔ values = [.integer n] := by
  rcases values with _ | ⟨v, _ | ⟨w, vs⟩⟩
  · simp [count, single]
  · cases v with
    | integer i =>
      simp only [count, single, Value.asInteger?]
      split
      · simp; omega
      · simp; omega
    | _ => simp [count, single, Value.asInteger?]
  · simp [count, single]

/-- What the change makes of a value that is read is the override by this value of the key. -/
def Sets {α : Type} (s : Settings) (title key : String) (read : Value → Option α)
    (change : α → Settings) : Prop :=
  ∀ {v : Value} {x : α}, read v = some x → change x = s.overriddenBy (only title key [v])

/-- The key takes what the setter does, and is overridden by it. -/
def Setter.Overrides (s : Settings) (title key : String) : Setter → Prop
  | number change => key ∈ numberKeys title ∧ s.Sets title key Value.asFloat? change
  | count change =>
    key ∈ countKeys title ∧ s.Sets title key (fun v => v.asInteger?.map Int.toNat) change

theorem setters_keys (s : Settings) (title : String) :
    (s.setters title).map Prod.fst = countKeys title ++ numberKeys title := by
  unfold setters
  split
  -- the title of no section
  case h_4 tracer layout game =>
    rw [numberKeys.eq_3 title tracer layout, countKeys.eq_3 title layout game]
    rfl
  all_goals rfl

theorem overrides_of_mem_setters {s : Settings} {title : String} :
    ∀ m ∈ s.setters title, m.2.Overrides s title m.1 := by
  unfold setters
  split
  all_goals
    simp +contextual [Setter.Overrides, Sets, numberKeys, countKeys, overriddenBy, only, numberOr,
      countOr, seedOr, givenOr]

/-- A section knows a key, which overrides its own setting, or it knows none of this name. -/
theorem setters_cases (s : Settings) (title key : String) :
    ((s.setters title).lookup key = none ∧ key ∉ countKeys title ∧ key ∉ numberKeys title) ∨
      ∃ setter, (s.setters title).lookup key = some setter ∧ setter.Overrides s title key := by
  have looked := Keyed.lookup_cases
    (P := fun key (setter : Setter) => setter.Overrides s title key) overrides_of_mem_setters key
  rwa [setters_keys, List.mem_append, not_or] at looked

/-- No key takes both a number and a count. -/
theorem not_mem_countKeys {title key : String} (h : key ∈ numberKeys title) :
    key ∉ countKeys title := by
  unfold numberKeys at h
  split at h
  · simp [countKeys]
  · simp only [List.mem_cons, List.not_mem_nil, or_false] at h
    rcases h with rfl | rfl | rfl | rfl <;> decide
  · cases h

section Key

variable {s t : Settings} {title key : String} {values : List Value}

theorem fits_iff_of_number (known : key ∈ numberKeys title) :
    Fits title key values ↔ ∃ x, number title key values = .ok x := by
  simp only [number_eq_ok_iff]
  constructor
  · rintro (⟨-, x⟩ | ⟨-, i⟩ | ⟨other, -⟩)
    · exact ⟨x, _, rfl, rfl⟩
    · exact ⟨_, _, rfl, rfl⟩
    · exact absurd other (not_mem_countKeys known)
  · rintro ⟨x, v, rfl, isNumber⟩
    cases v with
    | float x => exact .float known x
    | integer i => exact .integer known i
    | _ => cases isNumber

theorem fits_iff_of_count (known : key ∈ countKeys title) :
    Fits title key values ↔ ∃ n, count title key values = .ok n := by
  simp only [count_eq_ok_iff]
  constructor
  · rintro (⟨other, -⟩ | ⟨other, -⟩ | ⟨-, n⟩)
    · exact absurd known (not_mem_countKeys other)
    · exact absurd known (not_mem_countKeys other)
    · exact ⟨n, rfl⟩
  · rintro ⟨n, rfl⟩
    exact .count known n

theorem not_fits (noNumber : key ∉ numberKeys title) (noCount : key ∉ countKeys title) :
    ¬Fits title key values := by
  rintro (⟨known, -⟩ | ⟨known, -⟩ | ⟨known, -⟩)
  · exact noNumber known
  · exact noNumber known
  · exact noCount known

/-- A change of the one value that fits is an override by this value. -/
theorem map_eq_ok_iff {α : Type} {read : Value → Option α} {change : α → Settings}
    (sets : s.Sets title key read change) {found : Except SettingsFault α}
    (one : ∀ {x}, found = .ok x → ∃ v, values = [v] ∧ read v = some x)
    (fits : Fits title key values ↔ ∃ x, found = .ok x) :
    found.map change = .ok t ↔
      Fits title key values ∧ t = s.overriddenBy (only title key values) := by
  rw [fits]
  cases found with
  | error e => simp [Except.map]
  | ok x =>
    obtain ⟨v, rfl, isValue⟩ := one rfl
    simp [Except.map, sets isValue, eq_comm]

theorem map_number_eq_ok_iff {change : Float → Settings} (known : key ∈ numberKeys title)
    (sets : s.Sets title key Value.asFloat? change) :
    (number title key values).map change = .ok t ↔
      Fits title key values ∧ t = s.overriddenBy (only title key values) :=
  map_eq_ok_iff sets number_eq_ok_iff.1 (fits_iff_of_number known)

theorem map_count_eq_ok_iff {change : Nat → Settings} (known : key ∈ countKeys title)
    (sets : s.Sets title key (fun v => v.asInteger?.map Int.toNat) change) :
    (count title key values).map change = .ok t ↔
      Fits title key values ∧ t = s.overriddenBy (only title key values) :=
  map_eq_ok_iff sets (fun found => ⟨_, count_eq_ok_iff.1 found, rfl⟩) (fits_iff_of_count known)

theorem putTracer_eq_ok_iff :
    s.putTracer key values = .ok t ↔
      Fits "tracer" key values ∧ t = s.overriddenBy (only "tracer" key values) := by
  unfold putTracer
  rcases s.setters_cases "tracer" key with ⟨none, noCount, noNumber⟩ | ⟨setter, found, overrides⟩
  · split <;> simp [none, not_fits noNumber noCount]
  · cases setter with
    | number change =>
      obtain ⟨known, sets⟩ := overrides
      rw [← map_number_eq_ok_iff known sets]
      split <;> simp_all [Except.map]
    | count change => cases overrides.1

theorem putNamed_eq_ok_iff :
    s.putNamed title key values = .ok t ↔
      Fits title key values ∧ t = s.overriddenBy (only title key values) := by
  unfold putNamed
  rcases s.setters_cases title key with ⟨none, noCount, noNumber⟩ | ⟨setter, found, overrides⟩
  · simp [none, not_fits noNumber noCount]
  · cases setter with
    | number change => simp only [found, map_number_eq_ok_iff overrides.1 overrides.2]
    | count change => simp only [found, map_count_eq_ok_iff overrides.1 overrides.2]

/-- **What one key does**: its values fit, and they override its setting and no other. -/
theorem put_eq_ok_iff :
    s.put title key values = .ok t ↔
      Fits title key values ∧ t = s.overriddenBy (only title key values) := by
  unfold put
  by_cases tracer : title = "tracer"
  · subst tracer
    exact putTracer_eq_ok_iff
  · simp only [beq_iff_eq, tracer, if_false]
    exact putNamed_eq_ok_iff

end Key

/-! ## Whole documents -/

/-- The values that the entries of a section with this title give. -/
def givenIn (title : String) (entries : Section) (title' key : String) : Option (List Value) :=
  if title' = title then entries.lookup key else none

theorem givenIn_cons {title key : String} {values : List Value} {entries : Section} :
    givenIn title ((key, values) :: entries) =
      fun title' key' =>
        (only title key values title' key').or (givenIn title entries title' key') := by
  funext title' key'
  rw [givenIn, givenIn, only, Keyed.lookup_cons]
  by_cases here : title' = title
  · by_cases first : key' = key
    · simp [here, first]
    · simp [here, first]
  · simp [here]

theorem only_or_givenIn {title key : String} {entries : Section}
    (fresh : key ∉ entries.map Prod.fst) (values : List Value) (title' key' : String) :
    only title key values title' key' = none ∨ givenIn title entries title' key' = none := by
  by_cases here : title' = title ∧ key' = key
  · obtain ⟨rfl, rfl⟩ := here
    exact .inr (by rw [givenIn, if_pos rfl, Keyed.lookup_eq_none _ fresh])
  · exact .inl (if_neg here)

/-- **What a section does**, whose keys all differ: by induction on its entries, where what is
overridden first is a key that the others do not name. -/
theorem putSection_eq_ok_iff {title : String} {entries : Section} {s t : Settings}
    (nodup : (entries.map Prod.fst).Nodup) :
    putSection title entries s = .ok t ↔
      (∀ e ∈ entries, Fits title e.1 e.2) ∧ t = s.overriddenBy (givenIn title entries) := by
  induction entries generalizing s with
  | nil =>
    have nothing : s.overriddenBy (givenIn title []) = s := by
      unfold givenIn
      simp [s.overriddenBy_nothing]
    rw [putSection, nothing]
    simp [eq_comm]
  | cons e entries ih =>
    obtain ⟨key, values⟩ := e
    obtain ⟨fresh, rest⟩ := List.nodup_cons.1 nodup
    rw [putSection, List.forall_mem_cons, and_assoc, givenIn_cons,
      ← s.overriddenBy_overriddenBy (only_or_givenIn fresh values)]
    cases next : s.put title key values with
    | error e =>
      have unfit : ¬Fits title key values := fun fits => by
        rw [put_eq_ok_iff.2 ⟨fits, rfl⟩] at next
        cases next
      simp [unfit]
    | ok s' =>
      obtain ⟨fits, rfl⟩ := put_eq_ok_iff.1 next
      simp only [fits, true_and]
      exact ih rest

theorem values?_eq_none {title : String} {d : Document} (fresh : title ∉ d.map Prod.fst)
    (key : String) : d.values? title key = none := by
  rw [Document.values?, Keyed.lookup_eq_none _ fresh]
  rfl

theorem givenIn_or_values? {title : String} {d : Document} (fresh : title ∉ d.map Prod.fst)
    (entries : Section) (title' key : String) :
    givenIn title entries title' key = none ∨ d.values? title' key = none := by
  by_cases here : title' = title
  · exact .inr (here ▸ values?_eq_none fresh key)
  · exact .inl (if_neg here)

theorem values?_cons {title : String} {d : Document} (fresh : title ∉ d.map Prod.fst)
    (entries : Section) :
    Document.values? ((title, entries) :: d) =
      fun title' key => (givenIn title entries title' key).or (d.values? title' key) := by
  funext title' key
  rw [Document.values?, Keyed.lookup_cons, givenIn]
  by_cases here : title' = title
  · subst here
    simp [values?_eq_none fresh key]
  · simp [here, Document.values?]

theorem accepts_cons {title : String} {entries : Section} {d : Document} :
    Accepts ((title, entries) :: d) ↔
      title ∈ titles ∧ (∀ e ∈ entries, Fits title e.1 e.2) ∧ Accepts d := by
  constructor
  · rintro ⟨known, fits⟩
    obtain ⟨first, others⟩ := List.forall_mem_cons.1 known
    refine ⟨first, fun e he => fits ⟨entries, List.mem_cons_self, he⟩, others, ?_⟩
    rintro title' key values ⟨s, mem, given⟩
    exact fits ⟨s, List.mem_cons_of_mem _ mem, given⟩
  · rintro ⟨first, here, others, there⟩
    refine ⟨List.forall_mem_cons.2 ⟨first, others⟩, ?_⟩
    rintro title' key values ⟨s, mem, given⟩
    rcases List.mem_cons.1 mem with same | mem
    · obtain ⟨rfl, rfl⟩ := Prod.mk.inj same
      exact here _ given
    · exact there ⟨s, mem, given⟩

/-- **What a document does** that is a map: by induction on its sections, of which no other has the
title of the first. -/
theorem override_eq_ok_iff {d : Document} {s t : Settings} (map : d.IsMap) :
    override d s = .ok t ↔ Accepts d ∧ t = s.overriddenBy d.values? := by
  induction d generalizing s with
  | nil =>
    have accepts : Accepts [] := ⟨List.forall_mem_nil _, by rintro _ _ _ ⟨_, ⟨⟩, _⟩⟩
    have nothing : s.overriddenBy (Document.values? []) = s := s.overriddenBy_nothing
    rw [override, nothing]
    simp [accepts, eq_comm]
  | cons first d ih =>
    obtain ⟨title, entries⟩ := first
    obtain ⟨fresh, titles⟩ := List.nodup_cons.1 map.titles
    obtain ⟨nodup, keys⟩ := List.forall_mem_cons.1 map.keys
    rw [override, accepts_cons, values?_cons fresh,
      ← s.overriddenBy_overriddenBy (givenIn_or_values? fresh entries), and_assoc, and_assoc]
    by_cases known : title ∈ Settings.titles
    · cases next : putSection title entries s with
      | error e =>
        have unfit : ¬∀ e ∈ entries, Fits title e.1 e.2 := fun fits => by
          rw [(putSection_eq_ok_iff nodup).2 ⟨fits, rfl⟩] at next
          cases next
        simp only [unfit, false_and, and_false, iff_false]
        split <;> exact fun h => nomatch h
      | ok s' =>
        obtain ⟨fits, rfl⟩ := (putSection_eq_ok_iff nodup).1 next
        have contains : (!Settings.titles.contains title) = false := by simpa using known
        simp only [contains, Bool.false_eq_true, if_false, known, true_and]
        rw [ih ⟨titles, keys⟩, and_iff_right fits]
    · simp [known]

/-! ## Any order -/

/-- The settings that a text gives, when the sections and the keys of its document are visited in
the order that `arrange` puts them in. -/
def ofTextIn (arrange : Document → Document) (text : String) : Except SettingsFault Settings :=
  match Document.read text with
  | .error e => .error (.document e)
  | .ok d => ofDocument (arrange d)

theorem ofText_eq : ofText = ofTextIn id := rfl

/-- The standard settings with every value that the document gives. -/
def overridden (d : Document) : Settings := standard.overriddenBy d.values?

theorem ofDocument_eq_ok_iff {d : Document} {t : Settings} (map : d.IsMap) :
    ofDocument d = .ok t ↔ Accepts d ∧ t = overridden d ∧ t.validate = .ok () := by
  unfold ofDocument
  cases done : override d standard with
  | error e =>
    have refused : ¬Accepts d := fun accepts => by
      rw [(override_eq_ok_iff map).2 ⟨accepts, rfl⟩] at done
      cases done
    simp [refused]
  | ok s =>
    obtain ⟨accepts, rfl⟩ := (override_eq_ok_iff map).1 done
    rw [and_iff_right accepts, validate_eq_ok_iff]
    dsimp only
    split
    · rename_i e fault
      refine ⟨fun h => (nomatch h), fun ⟨same, valid⟩ => ?_⟩
      rw [same, overridden, fault] at valid
      cases valid
    · rename_i valid
      constructor
      · intro h
        obtain rfl := Except.ok.inj h
        exact ⟨rfl, valid⟩
      · rintro ⟨rfl, -⟩
        rfl

theorem accepts_iff_of_rearranged {d d' : Document} (h : Document.Rearranged d d') :
    Accepts d' ↔ Accepts d := by
  constructor
  · rintro ⟨known, fits⟩
    exact ⟨fun title mem => known title (h.titles.mem_iff.1 mem),
      fun given => fits (h.gives_iff.2 given)⟩
  · rintro ⟨known, fits⟩
    exact ⟨fun title mem => known title (h.titles.mem_iff.2 mem),
      fun given => fits (h.gives_iff.1 given)⟩

/-- No bit of a seed is lost. -/
theorem seed_overridden {text : String} {d : Document} (h : Document.read text = .ok d) {n : Nat}
    (given : Document.Gives d "game" "seed" [.integer n]) : (overridden d).seed.toNat = n := by
  have found := (Document.isMap_of_read h).values?_eq_some_iff.2 given
  have seed : (overridden d).seed = UInt64.ofNat n := by
    simp [overridden, overriddenBy, found, seedOr, givenOr, Value.asInteger?]
  have small : (n : Int) ≤ Int64.maxValue.toInt := by
    obtain ⟨s, mem, here⟩ := given
    exact Document.integer_le_of_isRead
      (Document.isRead_of_read h _ mem _ here _ List.mem_cons_self)
  have bound : Int64.maxValue.toInt = 9223372036854775807 := by decide
  rw [seed, UInt64.toNat_ofNat']
  omega

/-- **A text overrides the standard settings, in whatever order.** It is accepted exactly when it
reads as a document of known sections and keys, with one value of its kind for each of them, and the
standard settings with these values in place are valid; and then these are what it gives. -/
theorem ofTextIn_eq_ok_iff {arrange : Document → Document}
    (reorders : ∀ d, Document.Rearranged d (arrange d)) (text : String) (t : Settings) :
    ofTextIn arrange text = .ok t ↔
      ∃ d, Document.read text = .ok d ∧ Accepts d ∧ t = overridden d ∧ t.validate = .ok () ∧
        ∀ n : Nat, Document.Gives d "game" "seed" [.integer n] → t.seed.toNat = n := by
  unfold ofTextIn
  cases found : Document.read text with
  | error e => simp
  | ok d =>
    have map := Document.isMap_of_read found
    have moved := reorders d
    have same : overridden (arrange d) = overridden d := by
      rw [overridden, overridden, moved.values?_eq map]
    simp only [Except.ok.injEq, exists_eq_left']
    rw [ofDocument_eq_ok_iff (moved.isMap map), accepts_iff_of_rearranged moved, same]
    constructor
    · rintro ⟨accepts, rfl, valid⟩
      exact ⟨accepts, rfl, valid, fun n => seed_overridden found⟩
    · rintro ⟨accepts, rfl, valid, -⟩
      exact ⟨accepts, rfl, valid⟩

/-- The last section first, and in every section the last key first. -/
def backwards (d : Document) : Document := (d.map fun s => (s.1, s.2.reverse)).reverse

theorem rearranged_backwards (d : Document) : d.Rearranged (backwards d) := by
  refine ⟨d.reverse, (List.reverse_perm d).symm, ?_⟩
  rw [backwards, ← List.map_reverse, List.forall₂_map_right_iff, List.forall₂_same]
  exact fun s _ => ⟨rfl, (List.reverse_perm s.2).symm⟩

/-- Two sections, the first one with two keys. -/
def twoSections : Document :=
  [("tracer", [("x_end", [.float 2.5]), ("x_start", [.integer (-2)])]),
    ("game", [("seed", [.integer 7])])]

theorem accepts_twoSections : Accepts twoSections := by
  simp only [twoSections, accepts_cons, List.forall_mem_cons]
  exact ⟨by decide, ⟨.float (by decide) _, .integer (by decide) _, List.forall_mem_nil _⟩,
    by decide, ⟨.count (by decide) 7, List.forall_mem_nil _⟩,
    List.forall_mem_nil _, fun ⟨_, mem, _⟩ => nomatch mem⟩

theorem backwards_override :
    ofTextIn backwards "tracer\n x_end: 2.5\n x_start: -2\ngame\n seed: 7" =
      .ok { standard with
        window := { standard.window with xStart := Float.ofInt (-2), xEnd := 2.5 }
        seed := 7 } := by
  have read : Document.read "tracer\n x_end: 2.5\n x_start: -2\ngame\n seed: 7" =
      .ok twoSections := by with_unfolding_all rfl
  exact (ofTextIn_eq_ok_iff rearranged_backwards _ _).2
    ⟨twoSections, read, accepts_twoSections, rfl, validate_of_isNone (by decide +kernel),
      fun n given => seed_overridden read given⟩

end Settings

end CurvePuzzle
