import Highlighter.Pattern.Search.Regular

/-!
What a search finds. A search keeps its marks from place to place, so that it does not go over what
has led nowhere again. Main statement: it answers as if it began afresh at every place, with the
preferred match at the first place where there is one (`Pattern.isFirst_search`).
-/

set_option autoImplicit false

namespace Highlighter

namespace Pattern

open Trial.Regular (From)

variable {pattern : Pattern} {text : List Char}

/-- What ways of a pattern come to behind each meeting, wherever they begin. -/
def IsLaw (pattern : Pattern) (law : Nat → Place → List Stop) : Prop :=
  ∀ (text : List Char) (start : Nat) (place : Place), place.In text → start ≤ place.offset →
    (pattern.ways place).Lawful ⟨text, pattern.points, law, start⟩ fun _ _ => False

theorem exists_isLaw (pattern : Pattern) : ∃ law, pattern.IsLaw law := by
  obtain ⟨law, settled⟩ := (regular_run pattern 0).settles .answer
  refine ⟨law, fun text start place inside order => ?_⟩
  exact settled ⟨text, pattern.points, law, start⟩ .answer (fun _ _ _ => rfl)
    (fun point known => ⟨by simpa [From] using known, rfl⟩) (fun _ _ => False) start (Nat.le_refl _)
    (fun _ _ _ _ _ => trivial) _ _ (fun _ _ known => known) inside order

theorem not_has_unmarked {layout : Layout} {place : Place} {point offset : Nat} :
    ¬layout.Has (pattern.unmarked place) point offset := fun ⟨_, _, marked⟩ => by
  rw [Marks.contains, unmarked, Marks.hasKey_start] at marked
  cases marked

section

variable {law : Nat → Place → List Stop} {start : Nat} {marks : Marks} {place : Place}

/-- What has led nowhere from places before makes no difference. -/
theorem explore_ways_eq_matchAt (isLaw : pattern.IsLaw law) (inside : place.In text)
    (order : start ≤ place.offset)
    (exhausted : Layout.Exhausted ⟨text, pattern.points, law, start⟩ marks) :
    ((pattern.ways place).explore marks).1 = pattern.matchAt place := by
  have beside : Layout.Beside ⟨text, pattern.points, law, place.offset⟩ marks
      (pattern.unmarked place) marks :=
    ⟨⟨rfl, Nat.le_refl _⟩, ⟨exhausted.fits.1, Nat.le_trans exhausted.fits.2 order⟩,
      fun _ _ => ⟨.inr, fun known => known.resolve_left not_has_unmarked⟩⟩
  refine (Ways.explore_beside (isLaw text place.offset place inside (Nat.le_refl _)) ?_ beside
    nofun).1
  rintro point offset ⟨valid, reached, marked⟩ other otherInside same stop isStop
  obtain ⟨further, there, isMeeting, _, _, known⟩ := exhausted.follows point offset
    ⟨valid, Nat.le_trans order reached, marked⟩ other otherInside same stop isStop
  exact ⟨further, there, isMeeting, known⟩

theorem exhausted_explore_ways (isLaw : pattern.IsLaw law) (inside : place.In text)
    (order : start ≤ place.offset)
    (exhausted : Layout.Exhausted ⟨text, pattern.points, law, start⟩ marks) {later : Marks}
    (failed : (pattern.ways place).explore marks = (none, later)) :
    Layout.Exhausted ⟨text, pattern.points, law, start⟩ later := by
  have lawful := isLaw text start place inside order
  have fits : Layout.Fits ⟨text, pattern.points, law, start⟩ ((pattern.ways place).explore marks).2 :=
    Ways.fits_explore exhausted.fits
  have grows := Ways.grows_explore lawful exhausted.fits nofun
  rw [failed] at fits grows
  refine ⟨fits, fun point offset known other otherInside same => ?_⟩
  rcases (Ways.marked_explore lawful exhausted.fits nofun failed).2 point offset known with
    known | ⟨there, thereInside, isThere, marked⟩
  · exact (exhausted.follows point offset known other otherInside same).mono grows
  · rw [otherInside.eq_of_offset thereInside (same.trans isThere.symm)]
    exact marked

end

/-- The outcome of a search from `place` on is the preferred match at the first place where there is
one. -/
def IsFirst (pattern : Pattern) (text : List Char) (place : Place) :
    Option (Place × Reach) → Prop
  | none => ∀ start : Place, start.In text → place.offset ≤ start.offset →
      pattern.matchAt start = none
  | some (start, reach) =>
    start.In text ∧ place.offset ≤ start.offset ∧ pattern.matchAt start = some reach ∧
      ∀ earlier : Place, earlier.In text → place.offset ≤ earlier.offset →
        earlier.offset < start.offset → pattern.matchAt earlier = none

theorem isFirst_of_matchAt {place : Place} {reach : Reach} (inside : place.In text)
    (found : pattern.matchAt place = some reach) : pattern.IsFirst text place (some (place, reach)) :=
  ⟨inside, Nat.le_refl _, found, fun _ _ order before => absurd order (Nat.not_le_of_lt before)⟩

theorem IsFirst.of_past {place : Place} {c : Char} {rest : List Char} {found? : Option (Place × Reach)}
    (inside : place.In text) (follows : place.rest = c :: rest)
    (failed : pattern.matchAt place = none) (first : pattern.IsFirst text (place.past c rest) found?) :
    pattern.IsFirst text place found? := by
  have step : ∀ start : Place, start.In text → place.offset ≤ start.offset →
      pattern.matchAt start = none ∨ (place.past c rest).offset ≤ start.offset := by
    intro start startInside order
    refine (inside.eq_or_past follows startInside order).imp_left fun same => ?_
    rw [same]
    exact failed
  match found?, first with
  | none, noneThere =>
    exact fun start startInside order =>
      (step start startInside order).elim (fun failed => failed) (noneThere start startInside)
  | some (start, reach), ⟨startInside, order, found, earliest⟩ =>
    refine ⟨startInside, Nat.le_trans (Nat.le_add_right _ _) order, found, ?_⟩
    intro earlier earlierInside behind before
    exact (step earlier earlierInside behind).elim (fun failed => failed)
      fun onward => earliest earlier earlierInside onward before

theorem isFirst_seek {law : Nat → Place → List Stop} (isLaw : pattern.IsLaw law) {start offset : Nat}
    {before : Option Char} {rest : List Char} {marks : Marks}
    (inside : (Place.mk offset before rest).In text) (order : start ≤ offset)
    (exhausted : Layout.Exhausted ⟨text, pattern.points, law, start⟩ marks) :
    pattern.IsFirst text ⟨offset, before, rest⟩ (pattern.seek offset before rest marks) := by
  induction rest generalizing offset before marks with
  | nil =>
    have same := explore_ways_eq_matchAt isLaw inside order exhausted
    unfold seek
    simp only [same]
    match found : pattern.matchAt ⟨offset, before, []⟩ with
    | some reach => exact isFirst_of_matchAt inside found
    | none =>
      intro other otherInside onward
      rw [inside.eq_of_end rfl otherInside onward]
      exact found
  | cons c rest ih =>
    have same := explore_ways_eq_matchAt isLaw inside order exhausted
    unfold seek
    dsimp only
    split
    · next reach later found =>
      rw [found] at same
      exact isFirst_of_matchAt inside same.symm
    · next later found =>
      rw [found] at same
      exact .of_past inside rfl same.symm (ih (inside.past rfl)
        (Nat.le_trans order (Nat.le_add_right _ _))
        (exhausted_explore_ways isLaw inside order exhausted found))

/-- A search finds the preferred match at the first place where there is one. -/
theorem isFirst_search {place : Place} (inside : place.In text) :
    pattern.IsFirst text place (pattern.search place) := by
  obtain ⟨law, isLaw⟩ := exists_isLaw pattern
  exact isFirst_seek isLaw inside (Nat.le_refl _)
    ⟨⟨rfl, Nat.le_refl _⟩, fun _ _ known => absurd known not_has_unmarked⟩

end Pattern

end Highlighter
