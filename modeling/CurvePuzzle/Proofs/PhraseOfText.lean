import CurvePuzzle.Proofs.Grammar

/-!
# Every text that is read is a phrase

One lemma for each shape says that a text of this shape is derived by the grammar when the texts
that remain to be read are; the length of the text carries the induction.

* `IsExpression`: the text is derived by the grammar.
* `isExpression_sum`, `isExpression_product`, `isExpression_power`, …: the shapes.
* `isExpression_of_parse?`: a text that is read, and in which no sign follows a power mark, is
  derived by the grammar.
-/

set_option autoImplicit false

namespace CurvePuzzle

open Reading

/-- Does the grammar derive this text? -/
def IsExpression (cs : List Char) : Prop := ∃ p : Phrase .expression, p.text = cs

namespace Phrase

/-! ## Phrases of one operand -/

/-- A term and nothing else, behind signs. -/
def ofTerm (signs : List Polarity) (t : Phrase .term) : Phrase .expression :=
  expression signs t noTerm

/-- A factor and nothing else. -/
def ofFactor (f : Phrase .factor) : Phrase .expression := ofTerm [] (term f noFactor)

/-- A primary and nothing else. -/
def ofPrimary (p : Phrase .primary) : Phrase .expression := ofFactor (base p)

theorem text_ofTerm (signs : List Polarity) (t : Phrase .term) :
    (ofTerm signs t).text = signText signs ++ t.text := by
  rw [ofTerm, text, text, List.append_nil]

theorem text_ofFactor (f : Phrase .factor) : (ofFactor f).text = f.text := by
  rw [ofFactor, text_ofTerm, text, text, List.append_nil]
  rfl

theorem text_ofPrimary (p : Phrase .primary) : (ofPrimary p).text = p.text := text_ofFactor _

/-! ## What the reported operators say of a phrase -/

theorem text_of_no_term {rest : Phrase .terms} (h : ∀ c ∈ rest.joins, c ∉ ['+', '-']) :
    rest.text = [] := by
  cases rest with
  | noTerm => rfl
  | nextTerm sign signs t rest =>
    exact absurd (by cases sign <;> decide) (h sign.termSign List.mem_cons_self)

theorem text_of_no_factor {rest : Phrase .factors} (h : ∀ c ∈ rest.joins, c = '^') :
    rest.text = [] := by
  cases rest with
  | noFactor => rfl
  | nextFactor role signs f rest =>
    exact absurd (h role.factorSign List.mem_cons_self) (by cases role <;> decide)

/-- Without signs between operands an expression is a term behind signs. -/
theorem exists_signed_term {u : List Char} (hu : IsExpression u)
    (h : ∀ c ∈ Scan.opened.reported u, c ∉ ['+', '-']) :
    ∃ signs, ∃ t : Phrase .term, u = signText signs ++ t.text := by
  obtain ⟨q, rfl⟩ := hu
  rw [(q.scan_text rfl).1] at h
  cases q with
  | expression signs t rest =>
    have last := text_of_no_term fun c hc => h c (List.mem_append_right _ hc)
    exact ⟨signs, t, by rw [text, last, List.append_nil]⟩

/-- With no operators but power marks an expression is a factor behind signs. -/
theorem exists_signed_factor {u : List Char} (hu : IsExpression u)
    (h : ∀ c ∈ Scan.opened.reported u, c = '^') :
    ∃ signs, ∃ f : Phrase .factor, u = signText signs ++ f.text := by
  obtain ⟨q, rfl⟩ := hu
  rw [(q.scan_text rfl).1] at h
  cases q with
  | expression signs t rest =>
    have last : rest.text = [] := by
      apply text_of_no_term
      intro c hc
      rw [h c (List.mem_append_right _ hc)]
      decide
    cases t with
    | term f more =>
      have only := text_of_no_factor fun c hc =>
        h c (List.mem_append_left _ (List.mem_append_right _ hc))
      exact ⟨signs, f, by rw [text, text, last, only, List.append_nil, List.append_nil]⟩

/-- A text that starts with no sign has no signs before its operand. -/
theorem signs_eq_nil {signs : List Polarity} {u : List Char}
    (h : ∀ c ∈ (signText signs ++ u).head?, c ∉ ['+', '-']) : signs = [] := by
  cases signs with
  | nil => rfl
  | cons p signs => exact absurd (by cases p <;> decide) (h p.termSign rfl)

/-- At the start of a text a sign is reported, so a text that reports none starts with none, and is
read as behind an operator. -/
theorem reported_start {cs : List Char} (h : ∀ c ∈ Scan.start.reported cs, c ∉ ['+', '-']) :
    (∀ c ∈ cs.head?, c ∉ ['+', '-']) ∧
      Scan.opened.reported cs = Scan.start.reported cs := by
  cases cs with
  | nil => exact ⟨fun c hc => (by cases hc), rfl⟩
  | cons c cs =>
    have head : c ∉ ['+', '-'] := by
      intro m
      have sign : c ∈ Scan.start.reported (c :: cs) := by
        simp only [List.mem_cons, List.not_mem_nil, or_false] at m
        rcases m with rfl | rfl <;> exact List.mem_cons_self
      exact h c sign m
    refine ⟨fun d hd => Option.some.inj hd ▸ head, Scan.reported_eq_of_head ?_⟩
    simpa only [List.mem_cons, List.not_mem_nil, or_false, not_or] using head

/-- An expression that reports no sign, from its very start on, is a term. -/
theorem exists_term {u : List Char} (hu : IsExpression u)
    (h : ∀ c ∈ Scan.start.reported u, c ∉ ['+', '-']) : ∃ t : Phrase .term, t.text = u := by
  obtain ⟨plain, same⟩ := reported_start h
  rw [← same] at h
  obtain ⟨signs, t, rfl⟩ := exists_signed_term hu h
  obtain rfl := signs_eq_nil plain
  exact ⟨t, rfl⟩

/-- An expression that reports power marks only, from its very start on, is a factor. -/
theorem exists_factor {u : List Char} (hu : IsExpression u)
    (h : ∀ c ∈ Scan.start.reported u, c = '^') : ∃ f : Phrase .factor, f.text = u := by
  have unsigned : ∀ c ∈ Scan.start.reported u, c ∉ ['+', '-'] := by
    intro c hc
    rw [h c hc]
    decide
  obtain ⟨plain, same⟩ := reported_start unsigned
  rw [← same] at h
  obtain ⟨signs, f, rfl⟩ := exists_signed_factor hu h
  obtain rfl := signs_eq_nil plain
  exact ⟨f, rfl⟩

/-! ## Sums and products put together -/

/-- The text of the further members of a formula, each behind its mark. -/
def written (mark : Polarity → Char) (ms : List (Polarity × List Char)) : List Char :=
  ms.flatMap fun m => mark m.1 :: m.2

theorem written_cons (mark : Polarity → Char) (m : Polarity × List Char)
    (ms : List (Polarity × List Char)) :
    written mark (m :: ms) = mark m.1 :: (m.2 ++ written mark ms) := rfl

theorem exists_terms {ms : List (Polarity × List Char)}
    (h : ∀ m ∈ ms, ∃ signs, ∃ t : Phrase .term, m.2 = signText signs ++ t.text) :
    ∃ rest : Phrase .terms, rest.text = written Polarity.termSign ms := by
  induction ms with
  | nil => exact ⟨noTerm, rfl⟩
  | cons m ms ih =>
    obtain ⟨signs, t, e⟩ := h m List.mem_cons_self
    obtain ⟨rest, er⟩ := ih fun n hn => h n (List.mem_cons_of_mem _ hn)
    exact ⟨nextTerm m.1 signs t rest, by rw [text, er, written_cons, e]⟩

theorem exists_factors {ms : List (Polarity × List Char)}
    (h : ∀ m ∈ ms, ∃ signs, ∃ f : Phrase .factor, m.2 = signText signs ++ f.text) :
    ∃ rest : Phrase .factors, rest.text = written Polarity.factorSign ms := by
  induction ms with
  | nil => exact ⟨noFactor, rfl⟩
  | cons m ms ih =>
    obtain ⟨signs, f, e⟩ := h m List.mem_cons_self
    obtain ⟨rest, er⟩ := ih fun n hn => h n (List.mem_cons_of_mem _ hn)
    exact ⟨nextFactor m.1 signs f rest, by rw [text, er, written_cons, e]⟩

/-- When every operator of a cut has a polarity, no member is lost. -/
theorem written_members {mark : Polarity → Char} {polarity? : Char → Option Polarity}
    {tail : List (Char × List Char)}
    (h : ∀ m ∈ tail, ∃ p, polarity? m.1 = some p ∧ mark p = m.1) :
    written mark (Shape.members polarity? tail) = Scan.join tail := by
  induction tail with
  | nil => rfl
  | cons m tail ih =>
    obtain ⟨p, hp, e⟩ := h m List.mem_cons_self
    have rest := ih fun n hn => h n (List.mem_cons_of_mem _ hn)
    have first : Shape.members polarity? (m :: tail) =
        (p, m.2) :: Shape.members polarity? tail := by
      simp [Shape.members, hp]
    rw [first, written_cons, rest, e]
    rfl

theorem members_ne_nil {mark : Polarity → Char} {polarity? : Char → Option Polarity}
    {tail : List (Char × List Char)}
    (h : ∀ m ∈ tail, ∃ p, polarity? m.1 = some p ∧ mark p = m.1) (ne : tail ≠ []) :
    Shape.members polarity? tail ≠ [] := by
  intro none
  have join := written_members h
  rw [none] at join
  cases tail with
  | nil => exact ne rfl
  | cons m tail => cases join

theorem exists_of_mem_marks {mark : Polarity → Char} {polarity? : Char → Option Polarity}
    (reads : ∀ {c p}, polarity? c = some p ↔ c = mark p) {c : Char}
    (h : c ∈ [mark .direct, mark .inverse]) : ∃ p, polarity? c = some p ∧ mark p = c := by
  obtain ⟨p, rfl⟩ := (Shape.mem_marks_iff mark).1 h
  exact ⟨p, reads.2 rfl, rfl⟩

theorem exists_of_mem_termSigns {c : Char} (h : c ∈ ['+', '-']) :
    ∃ p, Polarity.ofTermSign? c = some p ∧ p.termSign = c :=
  exists_of_mem_marks Polarity.ofTermSign?_eq_some_iff h

theorem exists_of_mem_factorSigns {c : Char} (h : c ∈ ['*', '/']) :
    ∃ p, Polarity.ofFactorSign? c = some p ∧ p.factorSign = c :=
  exists_of_mem_marks Polarity.ofFactorSign?_eq_some_iff h

/-- Signs and members of a cut, put together again, give the text. -/
theorem written_split {ops : List Char} {mark : Polarity → Char}
    {polarity? : Char → Option Polarity}
    (h : ∀ {c}, c ∈ ops → ∃ p, polarity? c = some p ∧ mark p = c) (cs : List Char) :
    (splitAtOperators ops cs).1 ++
      written mark (Shape.members polarity? (splitAtOperators ops cs).2) = cs := by
  rw [written_members, splitAtOperators_join]
  intro m hm
  exact h (Scan.mem_ops_of_mem_split hm)

/-- Terms behind their signs, a sign at the very start included. -/
theorem isExpression_written {ms : List (Polarity × List Char)} (ne : ms ≠ [])
    (h : ∀ m ∈ ms, ∃ signs, ∃ t : Phrase .term, m.2 = signText signs ++ t.text) :
    IsExpression (written Polarity.termSign ms) := by
  cases ms with
  | nil => exact absurd rfl ne
  | cons m ms =>
    obtain ⟨signs, t, e⟩ := h m List.mem_cons_self
    obtain ⟨rest, er⟩ := exists_terms fun n hn => h n (List.mem_cons_of_mem _ hn)
    refine ⟨expression (m.1 :: signs) t rest, ?_⟩
    rw [text, er, written_cons, e]
    rfl

end Phrase

open Phrase

/-! ## One lemma for each shape -/

theorem isExpression_group {u : List Char} (hu : IsExpression u) :
    IsExpression ('(' :: (u ++ [')'])) := by
  obtain ⟨q, rfl⟩ := hu
  exact ⟨ofPrimary (group q), text_ofPrimary _⟩

theorem isExpression_var {c : Char} (hc : c = 'x' ∨ c = 'X') : IsExpression [c] := by
  rcases hc with rfl | rfl
  · exact ⟨ofPrimary (var false), text_ofPrimary _⟩
  · exact ⟨ofPrimary (var true), text_ofPrimary _⟩

theorem isExpression_number {cs : List Char} {v : Float} (number : Shape.isNumeral cs = true)
    (read : Decimal.readFloat? cs = some v) : IsExpression cs := by
  obtain ⟨n, rfl | ⟨p, rfl⟩⟩ := Numeral.exists_numeral number read
  · exact ⟨ofPrimary (numeral n), text_ofPrimary _⟩
  · refine ⟨ofTerm [p] (term (base (numeral n)) noFactor), ?_⟩
    rw [text_ofTerm, text, text, text, text, List.append_nil]
    rfl

/-- A sign can be put before an expression without signs between its operands. -/
theorem isExpression_signed (p : Polarity) {u : List Char} (hu : IsExpression u)
    (quiet : ∀ c ∈ Scan.opened.reported u, c ∉ ['+', '-']) :
    IsExpression (p.termSign :: u) := by
  obtain ⟨signs, t, rfl⟩ := exists_signed_term hu quiet
  exact ⟨ofTerm (p :: signs) t, text_ofTerm _ _⟩

theorem isExpression_call (f : FunctionName) {u : List Char} (hu : IsExpression u) :
    IsExpression (f.word ++ '(' :: (u ++ [')'])) := by
  obtain ⟨q, rfl⟩ := hu
  exact ⟨ofPrimary (call f q), text_ofPrimary _⟩

theorem isExpression_sum {cs : List Char} (some : ∃ c ∈ joiningOperators cs, c ∈ ['+', '-'])
    (h : ∀ u ∈ (Shape.terms cs).map Prod.snd, IsExpression u) : IsExpression cs := by
  have member : ∀ m ∈ Shape.members Polarity.ofTermSign? (splitAtOperators ['+', '-'] cs).2,
      IsExpression m.2 → ∃ signs, ∃ t : Phrase .term, m.2 = signText signs ++ t.text := by
    intro m hm expression
    obtain ⟨c, hc⟩ := Shape.exists_mem_of_mem_members hm
    exact exists_signed_term expression (Scan.quiet_of_mem_split hc)
  have cut := written_split exists_of_mem_termSigns cs
  unfold Shape.terms at h
  simp only at h
  split at h
  · -- the first sign belongs to the first term
    rename_i empty
    rw [List.isEmpty_iff.1 empty, List.nil_append] at cut
    obtain ⟨c, hc, m⟩ := some
    have someMember := members_ne_nil
      (fun m hm => exists_of_mem_termSigns (Scan.mem_ops_of_mem_split hm))
      (Shape.splitAtOperators_tail_ne_nil hc m)
    rw [← cut]
    exact isExpression_written someMember fun m hm => member m hm (h m.2 (List.mem_map_of_mem hm))
  · obtain ⟨t, et⟩ := exists_term (h _ List.mem_cons_self) (Scan.quiet_split_head _ Scan.start cs)
    obtain ⟨rest, er⟩ := exists_terms fun m hm =>
      member m hm (h m.2 (List.mem_cons_of_mem _ (List.mem_map_of_mem hm)))
    refine ⟨expression [] t rest, Eq.trans ?_ cut⟩
    rw [text, et, er]
    rfl

theorem isExpression_product {cs : List Char}
    (noTerm : ∀ c ∈ joiningOperators cs, c ∉ ['+', '-'])
    (h : ∀ u ∈ (Shape.factors cs).map Prod.snd, IsExpression u) : IsExpression cs := by
  have caret {c : Char} (hc : c ∈ joiningOperators cs) (noFactor : c ∉ ['*', '/']) : c = '^' :=
    Shape.eq_caret (Scan.isOperator_of_mem_reported hc) (noTerm c hc) noFactor
  have member : ∀ m ∈ Shape.members Polarity.ofFactorSign? (splitAtOperators ['*', '/'] cs).2,
      ∃ signs, ∃ f : Phrase .factor, m.2 = signText signs ++ f.text := by
    intro m hm
    obtain ⟨c, hc⟩ := Shape.exists_mem_of_mem_members hm
    apply exists_signed_factor (h m.2 (List.mem_cons_of_mem _ (List.mem_map_of_mem hm)))
    intro d hd
    exact caret (Scan.reported_of_mem_split hc hd) (Scan.quiet_of_mem_split hc d hd)
  have carets : ∀ c ∈ Scan.start.reported (splitAtOperators ['*', '/'] cs).1, c = '^' := by
    intro c hc
    exact caret (Scan.reported_split_head _ _ _ hc) (Scan.quiet_split_head _ _ _ c hc)
  obtain ⟨f, ef⟩ := exists_factor (h _ List.mem_cons_self) carets
  obtain ⟨rest, er⟩ := exists_factors member
  refine ⟨ofTerm [] (term f rest), Eq.trans ?_ (written_split exists_of_mem_factorSigns cs)⟩
  rw [text_ofTerm, text, ef, er]
  rfl

theorem isExpression_power {base exponent : List Char}
    (carets : ∀ c ∈ joiningOperators (base ++ '^' :: exponent), c = '^')
    (quiet : Scan.start.reported base = [])
    (unsigned : ∀ c ∈ exponent.head?, c ∉ ['+', '-'])
    (hb : IsExpression base) (he : IsExpression exponent) :
    IsExpression (base ++ '^' :: exponent) := by
  obtain ⟨f, rfl⟩ := exists_factor hb (by simp [quiet])
  have scan := f.scan_text (s := Scan.start) rfl
  -- a base that reports nothing is a primary
  rw [scan.1] at quiet
  cases f with
  | power p exponent => cases quiet
  | base p =>
    have behind : ∀ c ∈ Scan.opened.reported exponent, c = '^' := by
      intro c hc
      apply carets c
      rw [joiningOperators, Scan.reported_append, scan.2]
      exact List.mem_append_right _ (List.mem_cons_of_mem _ hc)
    obtain ⟨signs, g, rfl⟩ := exists_signed_factor he behind
    obtain rfl := signs_eq_nil unsigned
    exact ⟨ofFactor (power p g), text_ofFactor _⟩

/-! ## All texts -/

theorem hasSignedExponent_iff {cs : List Char} :
    hasSignedExponent cs = true ↔ ['^', '-'] <:+: cs ∨ ['^', '+'] <:+: cs := by
  induction cs with
  | nil => simp [hasSignedExponent]
  | cons c cs ih =>
    cases cs with
    | nil => simp [hasSignedExponent, List.infix_cons_iff, List.cons_prefix_cons]
    | cons d cs =>
      rw [hasSignedExponent, Bool.or_eq_true, ih, List.infix_cons_iff (a := c),
        List.infix_cons_iff (a := c)]
      simp only [List.cons_prefix_cons, List.nil_prefix, and_true, Bool.and_eq_true,
        Bool.or_eq_true, beq_iff_eq]
      grind

theorem hasSignedExponent_mono {u cs : List Char} (h : u <:+: cs)
    (none : hasSignedExponent cs = false) : hasSignedExponent u = false := by
  rw [Bool.eq_false_iff] at none ⊢
  intro signed
  rw [Ne, hasSignedExponent_iff] at none
  rcases hasSignedExponent_iff.1 signed with m | m
  · exact none (.inl (m.trans h))
  · exact none (.inr (m.trans h))

/-- When a formula is assembled, every piece was read. -/
theorem reads_of_mem_members {read? : List Char → Option (Formula Float)}
    {ms : List (Polarity × List Char)} {es : List (Polarity × Formula Float)}
    (h : readMembers? read? ms = some es) : ∀ u ∈ ms.map Prod.snd, (read? u).isSome = true := by
  induction ms generalizing es with
  | nil => intro u hu; cases hu
  | cons m ms ih =>
    obtain ⟨p, v⟩ := m
    rw [readMembers?] at h
    split at h
    · rename_i e rest first others
      intro u hu
      rcases List.mem_cons.1 hu with rfl | hu
      · exact Option.isSome_of_eq_some first
      · exact ih others u hu
    · cases h

theorem reads_of_mem_pieces {read? : List Char → Option (Formula Float)} {s : Shape}
    (h : (assemble? read? s).isSome = true) : ∀ u ∈ s.pieces, (read? u).isSome = true := by
  cases s with
  | nothing => cases h
  | group inner => exact fun u hu => List.mem_singleton.1 hu ▸ h
  | var => intro u hu; cases hu
  | number v => intro u hu; cases hu
  | signed p rest =>
    rw [assemble?, Option.isSome_map] at h
    exact fun u hu => List.mem_singleton.1 hu ▸ h
  | call f argument =>
    rw [assemble?, Option.isSome_map] at h
    exact fun u hu => List.mem_singleton.1 hu ▸ h
  | sum ts =>
    rw [assemble?, Option.isSome_map, Option.isSome_iff_exists] at h
    exact reads_of_mem_members h.choose_spec
  | product fs =>
    rw [assemble?, Option.isSome_map, Option.isSome_iff_exists] at h
    exact reads_of_mem_members h.choose_spec
  | power base exponent =>
    rw [assemble?] at h
    split at h
    · rename_i b e readBase readExponent
      intro u hu
      simp only [Shape.pieces, List.mem_cons, List.not_mem_nil, or_false] at hu
      rcases hu with rfl | rfl
      · exact Option.isSome_of_eq_some readBase
      · exact Option.isSome_of_eq_some readExponent
    · cases h

/-- A shape of an expression, when what remains to be read are expressions. -/
theorem isExpression_of_fits {cs : List Char} {s : Shape} (fits : Shape.Fits cs s)
    (none : hasSignedExponent cs = false) (some : s ≠ .nothing)
    (h : ∀ u ∈ s.pieces, IsExpression u) : IsExpression cs := by
  cases fits with
  | nothing => exact absurd rfl some
  | group hu => exact isExpression_group (h _ List.mem_cons_self)
  | var hc => exact isExpression_var hc
  | number number read => exact isExpression_number number read
  | signed p hu =>
    refine isExpression_signed p (h _ List.mem_cons_self) ?_
    intro c hc
    rw [Scan.reported_group rfl hu] at hc
    cases hc
  | call f hu => exact isExpression_call f (h _ List.mem_cons_self)
  | sum signs => exact isExpression_sum signs h
  | product noTerm => exact isExpression_product noTerm h
  | @power base exponent carets quiet =>
    refine isExpression_power carets quiet ?_ (h _ List.mem_cons_self)
      (h _ (List.mem_cons_of_mem _ List.mem_cons_self))
    intro c hc
    have inside : ['^', c] <:+: base ++ '^' :: exponent := by
      obtain ⟨rest, rfl⟩ := List.head?_eq_some_iff.1 hc
      exact ⟨base, rest, by simp⟩
    have plain := hasSignedExponent_mono inside none
    intro sign
    simp only [List.mem_cons, List.not_mem_nil, or_false] at sign
    rcases sign with rfl | rfl <;> cases plain

/-- **Every text that is read is derived by the grammar.** -/
theorem isExpression_of_parse? {cs : List Char} (read : (parse? cs).isSome = true)
    (none : hasSignedExponent cs = false) : IsExpression cs := by
  induction n : cs.length using Nat.strongRecOn generalizing cs with
  | ind n ih =>
    rw [parse?_eq] at read
    have fits := Shape.fits_ofText cs
    refine isExpression_of_fits fits none (fun e => by rw [e] at read; cases read) ?_
    intro u hu
    have shorter := Shape.length_lt_of_mem_pieces hu
    exact ih u.length (by omega) (reads_of_mem_pieces read u hu)
      (hasSignedExponent_mono (Shape.infix_of_mem_pieces fits hu) none) rfl

end CurvePuzzle
