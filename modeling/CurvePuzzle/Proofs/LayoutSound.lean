import CurvePuzzle.Proofs.LayoutPossible
import CurvePuzzle.Proofs.UniformDraw

/-!
# What layouts are like

Dots are asked for one after the other. Each gets the first of its attempts that keeps the distance from
all dots placed before; it is left out if none of them does.

* `Layout.attempt`, `Layout.attempt_mem`: the places that are tried, all in the area.
* `Layout.Builds`: the rule by which a row of requests turns into dots, word by word of the source.
* `Layout.placeOne_spec`, `Layout.builds_placeAll`: the program follows the rule.
* `Layout.Builds.inside`, `Layout.Builds.apart`, `Layout.Builds.kinds`: what the rule keeps.
* `Layout.layouts_are_sound`: all of it for the layout of any settings with an area to draw from.
-/

set_option autoImplicit false

namespace CurvePuzzle

open Binary64

/-- The source with some more words drawn. -/
def RandomSource.skip (s : RandomSource) (n : Nat) : RandomSource := { s with drawn := s.drawn + n }

theorem RandomSource.skip_skip (s : RandomSource) (m n : Nat) :
    (s.skip m).skip n = s.skip (m + n) := by
  simp [skip, Nat.add_assoc]

/-- Does the point lie in the area or on its edge? -/
structure Area.Holds (a : Area) (p : Point Float) : Prop where
  left : a.xMin ≤ p.x
  right : p.x ≤ a.xMax
  bottom : a.yMin ≤ p.y
  top : p.y ≤ a.yMax

/-- Is the area in order, and can places be drawn from it? -/
structure Area.Proper (a : Area) : Prop where
  width : a.xMin ≤ a.xMax
  height : a.yMin ≤ a.yMax
  drawable : a.Drawable

theorem isFinite_of_between {v low high : Float} (hlow : low.isFinite = true)
    (hhigh : high.isFinite = true) (above : low ≤ v) (below : v ≤ high) : v.isFinite = true := by
  rw [isFinite_iff, ← natAbs_place] at hlow hhigh ⊢
  rw [le_iff] at above below
  omega

theorem Area.Proper.isFinite {a : Area} (h : a.Proper) {p : Point Float} (hp : a.Holds p) :
    p.IsFinite := by
  obtain ⟨xMax, xMin⟩ := isFinite_of_sub h.drawable.1
  obtain ⟨yMax, yMin⟩ := isFinite_of_sub h.drawable.2
  exact ⟨isFinite_of_between xMin xMax hp.left hp.right,
    isFinite_of_between yMin yMax hp.bottom hp.top⟩

namespace Layout

/-! ## Attempts -/

/-- The place that is tried when `n` places were tried before, all with words from this source. -/
def attempt (area : Area) (source : RandomSource) (n : Nat) : Point Float :=
  (draw area (source.skip (2 * n))).1

/-- Is there a dot that the place is too close to? -/
def Crowded (dots : List Dot) (p : Point Float) : Prop :=
  ∃ d ∈ dots, d.center.distanceSquared p < minDistanceSquared

theorem attempt_mem {area : Area} (h : area.Proper) (source : RandomSource) (n : Nat) :
    area.Holds (attempt area source n) := by
  obtain ⟨left, right⟩ := RandomSource.uniform_mem h.width h.drawable.1 (source.skip (2 * n))
  obtain ⟨bottom, top⟩ :=
    RandomSource.uniform_mem h.height h.drawable.2 (source.skip (2 * n)).next.2
  exact ⟨left, right, bottom, top⟩

theorem draw_source (area : Area) (source : RandomSource) : (draw area source).2 = source.skip 2 :=
  rfl

theorem attempt_succ (area : Area) (source : RandomSource) (n : Nat) :
    attempt area (source.skip 2) n = attempt area source (n + 1) := by
  have words : 2 + 2 * n = 2 * (n + 1) := by omega
  rw [attempt, attempt, RandomSource.skip_skip, words]

/-- **The first free place** among those that are tried, and the words drawn until then. -/
theorem placeOne_spec (area : Area) (dots : List Dot) (attempts : Nat) (source : RandomSource) :
    (∃ n < attempts, isFree dots (attempt area source n) = true ∧
        (∀ k < n, isFree dots (attempt area source k) = false) ∧
          placeOne area dots attempts source =
            (some (attempt area source n), source.skip (2 * (n + 1)))) ∨
      ((∀ k < attempts, isFree dots (attempt area source k) = false) ∧
        placeOne area dots attempts source = (none, source.skip (2 * attempts))) := by
  induction attempts generalizing source with
  | zero => exact .inr ⟨fun k hk => absurd hk (Nat.not_lt_zero k), rfl⟩
  | succ attempts ih =>
    have first : (draw area source).1 = attempt area source 0 := rfl
    have below {n : Nat} (fail : isFree dots (attempt area source 0) = false)
        (others : ∀ k < n, isFree dots (attempt area (source.skip 2) k) = false) :
        ∀ k < n + 1, isFree dots (attempt area source k) = false := by
      intro k hk
      cases k with
      | zero => exact fail
      | succ k =>
        rw [← attempt_succ]
        exact others k (by omega)
    simp only [placeOne, draw_source, first]
    cases free : isFree dots (attempt area source 0) with
    | true =>
      exact .inl ⟨0, Nat.succ_pos _, free, fun k hk => absurd hk (Nat.not_lt_zero k), rfl⟩
    | false =>
      simp only [Bool.false_eq_true, if_false]
      have words (n : Nat) : 2 + 2 * n = 2 * (n + 1) := by omega
      rcases ih (source.skip 2) with ⟨n, hn, free', others, placed⟩ | ⟨others, none⟩
      · rw [attempt_succ] at free' placed
        rw [RandomSource.skip_skip, words] at placed
        exact .inl ⟨n + 1, by omega, free', below free others, placed⟩
      · rw [RandomSource.skip_skip, words] at none
        exact .inr ⟨below free others, none⟩

theorem isFree_eq_true_iff {dots : List Dot} {p : Point Float} :
    isFree dots p = true ↔ ∀ d ∈ dots, minDistanceSquared ≤ d.center.distanceSquared p := by
  simp [isFree]

theorem code_minDistanceSquared_le : code minDistanceSquared ≤ infinityCode := by decide +kernel

/-- A place that is not free is too close to a dot, since all distances are numbers. -/
theorem crowded_of_isFree {area : Area} (h : area.Proper) {dots : List Dot}
    (inside : ∀ d ∈ dots, area.Holds d.center) {p : Point Float} (hp : area.Holds p)
    (taken : isFree dots p = false) : Crowded dots p := by
  rw [← Bool.not_eq_true, isFree_eq_true_iff] at taken
  simp only [not_forall] at taken
  obtain ⟨d, hd, close⟩ := taken
  have defined := Point.code_distanceSquared_le (h.isFinite (inside d hd)) (h.isFinite hp)
  exact ⟨d, hd, (not_le_iff_lt code_minDistanceSquared_le defined).1 close⟩

/-! ## The rule -/

/-- The dot of a kind at a place. -/
def dotAt (kind : DotKind) (p : Point Float) : Dot := ⟨p.x, p.y, kind⟩

/-- **The rule of a layout**: how dots of these kinds, asked for in order beside those that are there,
come to lie, with the words of this source. -/
inductive Builds (area : Area) : List Dot → RandomSource → List DotKind → List Dot → Prop where
  | done (dots : List Dot) (source : RandomSource) : Builds area dots source [] dots
  | placed {dots final : List Dot} {source : RandomSource} {kind : DotKind} {kinds : List DotKind}
      (n : Nat) (few : n < maxAttempts) (crowded : ∀ k < n, Crowded dots (attempt area source k))
      (free : ∀ d ∈ dots, minDistanceSquared ≤ d.center.distanceSquared (attempt area source n))
      (rest : Builds area (dots ++ [dotAt kind (attempt area source n)])
        (source.skip (2 * (n + 1))) kinds final) :
      Builds area dots source (kind :: kinds) final
  | missing {dots final : List Dot} {source : RandomSource} {kind : DotKind} {kinds : List DotKind}
      (crowded : ∀ k < maxAttempts, Crowded dots (attempt area source k))
      (rest : Builds area dots (source.skip (2 * maxAttempts)) kinds final) :
      Builds area dots source (kind :: kinds) final

theorem forall_mem_concat {β : Type} {P : β → Prop} {bs : List β} {b : β} (h : ∀ c ∈ bs, P c)
    (hb : P b) : ∀ c ∈ bs ++ [b], P c :=
  List.forall_mem_append.2 ⟨h, List.forall_mem_singleton.2 hb⟩

/-- **Placing follows the rule.** -/
theorem builds_placeAll {area : Area} (h : area.Proper) (kinds : List DotKind) (layout : Layout)
    (source : RandomSource) (inside : ∀ d ∈ layout.dots, area.Holds d.center) :
    Builds area layout.dots source kinds (placeAll area kinds layout source).1.dots := by
  induction kinds generalizing layout source with
  | nil => exact .done _ _
  | cons kind kinds ih =>
    rcases placeOne_spec area layout.dots maxAttempts source with
      ⟨n, few, free, taken, placed⟩ | ⟨taken, none⟩
    · have next : area.Holds (dotAt kind (attempt area source n)).center := attempt_mem h source n
      simp only [placeAll, placed]
      refine .placed n few ?_ (isFree_eq_true_iff.1 free) ?_
      · intro k hk
        exact crowded_of_isFree h inside (attempt_mem h source k) (taken k hk)
      · exact ih { layout with dots := layout.dots ++ [dotAt kind (attempt area source n)] } _
          (forall_mem_concat inside next)
    · simp only [placeAll, none]
      refine .missing ?_ (ih { layout with skipped := layout.skipped ++ [kind] } _ inside)
      intro k hk
      exact crowded_of_isFree h inside (attempt_mem h source k) (taken k hk)

/-! ## What the rule keeps -/

namespace Builds

variable {area : Area} {dots final : List Dot} {source : RandomSource} {kinds : List DotKind}

/-- All dots lie in the area. -/
theorem inside (built : Builds area dots source kinds final) (h : area.Proper)
    (start : ∀ d ∈ dots, area.Holds d.center) : ∀ d ∈ final, area.Holds d.center := by
  induction built with
  | done dots source => exact start
  | placed n _ _ _ _ ih => exact ih (forall_mem_concat start (attempt_mem h _ n))
  | missing _ _ ih => exact ih start

end Builds

/-- Are the centres of the two dots far enough from each other, measured from either? -/
def Apart (d e : Dot) : Prop :=
  minDistanceSquared ≤ d.center.distanceSquared e.center ∧
    minDistanceSquared ≤ e.center.distanceSquared d.center

namespace Builds

variable {area : Area} {dots final : List Dot} {source : RandomSource} {kinds : List DotKind}

/-- **All dots keep their distance**, those that were there and those that are placed. -/
theorem apart (built : Builds area dots source kinds final) (h : area.Proper)
    (inside : ∀ d ∈ dots, area.Holds d.center) (start : dots.Pairwise Apart) :
    final.Pairwise Apart := by
  induction built with
  | done dots source => exact start
  | @placed dots final source kind kinds n _ _ free _ ih =>
    have next := attempt_mem h source n
    refine ih (forall_mem_concat inside next) (List.pairwise_append.2 ⟨start, ?_, ?_⟩)
    · exact List.pairwise_singleton _ _
    · intro d hd e he
      rw [List.mem_singleton.1 he]
      have turned := Point.distanceSquared_comm (h.isFinite (inside d hd)) (h.isFinite next)
      exact ⟨free d hd, turned ▸ free d hd⟩
  | missing _ _ ih => exact ih inside start

/-- **Dots are placed in the order in which they are asked for**; none is placed that is not. -/
theorem kinds_sublist (built : Builds area dots source kinds final) :
    ∃ new, final = dots ++ new ∧ (new.map Dot.kind).Sublist kinds := by
  induction built with
  | done dots source => exact ⟨[], by simp, List.nil_sublist _⟩
  | @placed dots final source kind kinds n _ _ _ _ ih =>
    obtain ⟨new, rfl, order⟩ := ih
    exact ⟨dotAt kind (attempt area source n) :: new, by simp, order.cons_cons kind⟩
  | missing _ _ ih =>
    obtain ⟨new, rfl, order⟩ := ih
    exact ⟨new, rfl, order.cons _⟩

end Builds

/-! ## Layouts of settings -/

/-- Good dots come first, then bad ones, and no more of either than are asked for. -/
def Ordered (goodDots badDots : Nat) (dots : List Dot) : Prop :=
  ∃ good bad, dots = good ++ bad ∧ (∀ d ∈ good, d.kind = .good) ∧ (∀ d ∈ bad, d.kind = .bad) ∧
    good.length ≤ goodDots ∧ bad.length ≤ badDots

theorem ordered_of_sublist {goodDots badDots : Nat} {dots : List Dot}
    (h : (dots.map Dot.kind).Sublist
      (List.replicate goodDots DotKind.good ++ List.replicate badDots DotKind.bad)) :
    Ordered goodDots badDots dots := by
  obtain ⟨goodKinds, badKinds, split, first, last⟩ := List.sublist_append_iff.1 h
  obtain ⟨good, bad, rfl, rfl, rfl⟩ := List.map_eq_append_iff.1 split
  refine ⟨good, bad, rfl, ?_, ?_, ?_, ?_⟩
  · intro d hd
    exact List.eq_of_mem_replicate (first.subset (List.mem_map_of_mem hd))
  · intro d hd
    exact List.eq_of_mem_replicate (last.subset (List.mem_map_of_mem hd))
  · simpa using first.length_le
  · simpa using last.length_le

/-- The kinds of the dots that settings ask for, in order. -/
def kindsOf (s : Settings) : List DotKind :=
  List.replicate s.goodDots DotKind.good ++ List.replicate s.badDots DotKind.bad

theorem dots_of_generate {s : Settings} {source : RandomSource}
    {l : Logged (List Dot × RandomSource)} (made : generate s source = .ok l) :
    l.value.1 = (placeAll s.area (kindsOf s) ⟨[], []⟩ source).1.dots := by
  unfold generate at made
  split at made
  · cases made
  · simp only at made
    split at made
    · cases made
    · rw [← Except.ok.inj made]
      rfl

/-- A layout is made where the dots are not too many and the area is one to draw from. -/
theorem exists_generate {s : Settings} (few : s.goodDots + s.badDots ≤ maxDots)
    (possible : checkArea s.area = none) (source : RandomSource) :
    ∃ l, generate s source = .ok l := by
  simp only [generate, if_neg (Nat.not_lt.2 few), possible, ite_self]
  exact ⟨_, rfl⟩

/-- **A layout is sound**, for every random source and all settings whose area is one to draw from. All
centres lie in the area, and any two of them at least two radii apart. Good dots come before bad ones,
no more of either than are asked for. The dots come about by the rule, so one that is missing was tried
at `maxAttempts` places, and all of them were too close to a dot placed before. -/
theorem layouts_are_sound {s : Settings} (width : s.area.xMin ≤ s.area.xMax)
    (height : s.area.yMin ≤ s.area.yMax) (drawable : s.area.Drawable) {source : RandomSource}
    {l : Logged (List Dot × RandomSource)} (made : generate s source = .ok l) :
    (∀ d ∈ l.value.1, s.area.Holds d.center) ∧ l.value.1.Pairwise Apart ∧
      Ordered s.goodDots s.badDots l.value.1 ∧ Builds s.area [] source (kindsOf s) l.value.1 := by
  have h : s.area.Proper := ⟨width, height, drawable⟩
  have empty : ∀ d ∈ ([] : List Dot), s.area.Holds d.center := List.forall_mem_nil _
  have built := builds_placeAll h (kindsOf s) ⟨[], []⟩ source empty
  rw [← dots_of_generate made] at built
  obtain ⟨new, all, order⟩ := built.kinds_sublist
  rw [List.nil_append] at all
  exact ⟨built.inside h empty, built.apart h empty .nil, ordered_of_sublist (all ▸ order), built⟩

/-- An area smaller than a dot, for which more dots are asked than it has room for. -/
theorem crowded_layout_is_sound :
    let s : Settings := { Settings.standard with goodDots := 5, area := ⟨-0.0, 0.1, 0.05, 0.05⟩ }
    ∃ l, generate s (.seeded 0) = .ok l ∧ s.area.xMin ≤ s.area.xMax ∧ s.area.yMin ≤ s.area.yMax ∧
      s.area.Drawable ∧ (∀ d ∈ l.value.1, s.area.Holds d.center) ∧ l.value.1.Pairwise Apart ∧
        Ordered 5 3 l.value.1 ∧ Builds s.area [] (.seeded 0) (kindsOf s) l.value.1 := by
  intro s
  have width : s.area.xMin ≤ s.area.xMax := by decide +kernel
  have height : s.area.yMin ≤ s.area.yMax := by decide +kernel
  have drawable : s.area.Drawable := by decide +kernel
  have made : ∃ l, generate s (.seeded 0) = .ok l :=
    exists_generate (by decide) (by decide +kernel) _
  obtain ⟨l, made⟩ := made
  exact ⟨l, made, width, height, drawable, layouts_are_sound width height drawable made⟩

end Layout

end CurvePuzzle
