import CurvePuzzle.Layout
import CurvePuzzle.Proofs.TracedRuns

/-!
# When accepted settings can be played

Accepted settings always give a tracer, but not always a layout: `Settings.validate` asks for an
area that is not empty, and drawing a place asks for one of finite width and height besides. Nor
does it bound the number of dots by what memory can hold.

* `Settings.HasLayout`: what a layout needs beyond accepted settings.
* `Layout.generate_cases`: how the layout of accepted settings comes out, and why.
* `Settings.playable_iff`: accepted settings have a tracer, and a layout just when they can.
* `Settings.layout_is_impossible`: accepted settings that have none.
-/

set_option autoImplicit false

namespace CurvePuzzle

open Binary64

/-- Can places be drawn from the area, being not too wide and not too high for a float? -/
def Area.Drawable (a : Area) : Prop :=
  (a.xMax - a.xMin).isFinite = true ∧ (a.yMax - a.yMin).isFinite = true

instance (a : Area) : Decidable a.Drawable := inferInstanceAs (Decidable (_ ∧ _))

/-- Do the settings ask for no more dots than memory holds, and for some only in an area to draw
from? -/
def Settings.HasLayout (s : Settings) : Prop :=
  s.goodDots + s.badDots ≤ Layout.maxDots ∧ (s.goodDots + s.badDots = 0 ∨ s.area.Drawable)

/-- A range that is not empty fails by its width only. -/
theorem checkRange_of_lt {low high : Float} (h : low < high) :
    checkRange low high = if (high - low).isFinite then none else some .notFinite := by
  have le : low ≤ high := by
    obtain ⟨definedLow, definedHigh, below⟩ := (lt_iff _ _).1 h
    exact (le_iff _ _).2 ⟨definedLow, definedHigh, Int.le_of_lt below⟩
  unfold checkRange
  cases (high - low).isFinite <;> simp [le]

namespace Layout

theorem checkArea_of_lt {a : Area} (x : a.xMin < a.xMax) (y : a.yMin < a.yMax) :
    checkArea a = if a.Drawable then none else some .notFinite := by
  rw [checkArea, checkRange_of_lt x, checkRange_of_lt y]
  by_cases width : (a.xMax - a.xMin).isFinite = true
  · by_cases height : (a.yMax - a.yMin).isFinite = true
    · rw [if_pos width, if_pos height, if_pos ⟨width, height⟩, Option.none_or]
    · have tall : ¬a.Drawable := mt And.right height
      rw [if_pos width, if_neg height, if_neg tall, Option.none_or]
  · have wide : ¬a.Drawable := mt And.left width
    rw [if_neg width, if_neg wide, Option.some_or]

theorem isEmpty_kinds (good bad : Nat) :
    (List.replicate good DotKind.good ++ List.replicate bad DotKind.bad).isEmpty = true ↔
      good + bad = 0 := by
  rw [List.isEmpty_iff_length_eq_zero, List.length_append, List.length_replicate,
    List.length_replicate]

/-- **How the layout of accepted settings comes out.** It is there, or the dots are too many, or the
area is too large to draw from; an empty range is never met. -/
theorem generate_cases {s : Settings} (valid : s.validate = .ok ()) (source : RandomSource) :
    (s.HasLayout ∧ ∃ l, generate s source = .ok l) ∨
      (maxDots < s.goodDots + s.badDots ∧ generate s source = .error .tooManyDots) ∨
      (0 < s.goodDots + s.badDots ∧ ¬s.area.Drawable ∧
        generate s source = .error (.range .notFinite)) := by
  obtain ⟨-, -, -, -, x, y⟩ :=
    Settings.fault?_eq_none_iff.1 (Settings.validate_eq_ok_iff.1 valid)
  unfold generate
  by_cases many : maxDots < s.goodDots + s.badDots
  · rw [if_pos many]
    exact .inr (.inl ⟨many, rfl⟩)
  · rw [if_neg many]
    by_cases none : s.goodDots + s.badDots = 0
    · simp only [if_pos ((isEmpty_kinds _ _).2 none)]
      exact .inl ⟨⟨Nat.not_lt.1 many, .inl none⟩, _, rfl⟩
    · simp only [if_neg ((isEmpty_kinds _ _).not.2 none), checkArea_of_lt x y]
      by_cases drawable : s.area.Drawable
      · simp only [if_pos drawable]
        exact .inl ⟨⟨Nat.not_lt.1 many, .inr drawable⟩, _, rfl⟩
      · refine .inr (.inr ⟨Nat.pos_of_ne_zero none, drawable, ?_⟩)
        simp only [if_neg drawable]

end Layout

namespace Settings

/-- **What accepted settings are good for.** They have a tracer. From every random source they have
a layout just when memory holds the dots and the area, if any dot is asked for, is one to draw
from. -/
theorem playable_iff {s : Settings} (valid : s.validate = .ok ()) :
    s.tracer = .ok ⟨s.window, s.sampling⟩ ∧
      ∀ source, (∃ l, Layout.generate s source = .ok l) ↔ s.HasLayout := by
  refine ⟨tracer_of_validate valid, ?_⟩
  intro source
  rcases Layout.generate_cases valid source with ⟨has, made⟩ | ⟨many, failed⟩ | ⟨some, wide, failed⟩
  · exact ⟨fun _ => has, fun _ => made⟩
  · rw [failed]
    constructor
    · rintro ⟨l, ⟨⟩⟩
    · rintro ⟨few, -⟩
      omega
  · rw [failed]
    constructor
    · rintro ⟨l, ⟨⟩⟩
    · rintro ⟨-, none | drawable⟩
      · omega
      · exact absurd drawable wide

/-- The settings of a game that sets none can be played. -/
theorem standard_is_playable :
    (∃ t, standard.tracer = .ok t) ∧ ∃ l, Layout.generate standard (.seeded 0) = .ok l := by
  obtain ⟨made, layout⟩ := playable_iff validate_standard
  exact ⟨⟨_, made⟩, (layout (.seeded 0)).2 ⟨by decide, .inr (by decide +kernel)⟩⟩

/-- **A layout need not be possible**, though the settings are accepted: an area can be too wide to
draw from, and there can be more dots than memory holds. -/
theorem layout_is_impossible :
    (∃ s : Settings, s.validate = .ok () ∧
        ∀ source, Layout.generate s source = .error (.range .notFinite)) ∧
      ∃ s : Settings, s.validate = .ok () ∧
        ∀ source, Layout.generate s source = .error .tooManyDots := by
  constructor
  · let wide : Settings :=
      { standard with goodDots := 1, badDots := 0, area := ⟨-1e308, 1e308, -9.0, 9.0⟩ }
    have valid : wide.validate = .ok () := validate_of_isNone (by decide +kernel)
    have undrawable : ¬wide.area.Drawable := by decide +kernel
    refine ⟨wide, valid, ?_⟩
    intro source
    rcases Layout.generate_cases valid source with ⟨⟨-, none | drawable⟩, -⟩ | ⟨many, -⟩ | failed
    · exact absurd none (by decide)
    · exact absurd drawable undrawable
    · exact absurd many (by decide)
    · exact failed.2.2
  · let crowded : Settings := { standard with goodDots := Layout.maxDots + 1 }
    have many : Layout.maxDots < crowded.goodDots + crowded.badDots := by decide
    refine ⟨crowded, validate_of_isNone (by decide +kernel), ?_⟩
    intro source
    rw [Layout.generate, if_pos many]

end Settings

end CurvePuzzle
