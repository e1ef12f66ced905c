import Highlighter.Pattern.Ways
import Highlighter.Text.Place

/-!
Ways that meet. In a layout the stops behind a meeting depend on the point and the place alone. For
ways of one layout the marks that a failed attempt leaves behind are worth keeping: all that follows
what they mark is marked too (`marked_explore`), so they change no later answer (`explore_beside`).
-/

set_option autoImplicit false

namespace Highlighter

/-- What the ways from a reach come to first: a meeting, or else an answer. -/
abbrev Stop := Option (Nat × Nat)

/-- Where the ways of a pattern meet, and what they come to next from each meeting. -/
structure Layout where
  text : List Char
  width : Nat
  law : Nat → Place → List Stop
  /-- No meeting lies before this offset. -/
  start : Nat

/-- A meeting of the layout that is marked. -/
def Layout.Has (layout : Layout) (marks : Marks) (point offset : Nat) : Prop :=
  point < layout.width ∧ layout.start ≤ offset ∧ marks.contains point offset = true

/-- There is room for all meetings. -/
def Layout.Fits (layout : Layout) (marks : Marks) : Prop :=
  marks.width = layout.width ∧ marks.first ≤ layout.start

def Layout.Grows (layout : Layout) (marks later : Marks) : Prop :=
  ∀ point offset, layout.Has marks point offset → layout.Has later point offset

/-- All of these are meetings of the layout that are marked. -/
def Layout.Marked (layout : Layout) (marks : Marks) (stops : List Stop) : Prop :=
  ∀ stop ∈ stops, ∃ point offset, stop = some (point, offset) ∧ layout.Has marks point offset

def Marks.Knows (marks : Marks) (stops : List Stop) : Prop :=
  ∀ stop ∈ stops, ∃ point offset, stop = some (point, offset) ∧ marks.contains point offset = true

/-- What follows a meeting marked in `dead` is marked there too. -/
def Layout.Closed (layout : Layout) (dead : Marks) : Prop :=
  ∀ point offset, layout.Has dead point offset → ∀ place, place.In layout.text →
    place.offset = offset → dead.Knows (layout.law point place)

/-- All that follows what is marked is marked. -/
structure Layout.Exhausted (layout : Layout) (marks : Marks) : Prop where
  fits : layout.Fits marks
  follows : ∀ point offset, layout.Has marks point offset → ∀ place, place.In layout.text →
    place.offset = offset → layout.Marked marks (layout.law point place)

/-- `more` marks what `marks` and `dead` mark. -/
structure Layout.Beside (layout : Layout) (dead marks more : Marks) : Prop where
  fits : layout.Fits marks
  fitsMore : layout.Fits more
  has_iff : ∀ point offset, layout.Has more point offset ↔
    layout.Has marks point offset ∨ layout.Has dead point offset

namespace Layout

variable {layout : Layout} {marks later : Marks} {point offset other place : Nat}

theorem has_insert (fits : layout.Fits marks) (known : point < layout.width)
    (reached : layout.start ≤ offset) :
    layout.Has (marks.insert point offset) other place ↔
      (other = point ∧ place = offset) ∨ layout.Has marks other place := by
  constructor
  · rintro ⟨valid, inside, marked⟩
    rw [Marks.contains_insert (Nat.le_trans fits.2 reached) (Nat.le_trans fits.2 inside)
      (fits.1 ▸ known) (fits.1 ▸ valid)] at marked
    simp only [Bool.or_eq_true, Bool.and_eq_true, beq_iff_eq] at marked
    rcases marked with ⟨rfl, rfl⟩ | marked
    · exact .inl ⟨rfl, rfl⟩
    · exact .inr ⟨valid, inside, marked⟩
  · intro marked
    have valid : other < layout.width ∧ layout.start ≤ place := by
      rcases marked with ⟨rfl, rfl⟩ | ⟨valid, inside, _⟩
      · exact ⟨known, reached⟩
      · exact ⟨valid, inside⟩
    refine ⟨valid.1, valid.2, ?_⟩
    rw [Marks.contains_insert (Nat.le_trans fits.2 reached) (Nat.le_trans fits.2 valid.2)
      (fits.1 ▸ known) (fits.1 ▸ valid.1)]
    rcases marked with ⟨rfl, rfl⟩ | ⟨_, _, marked⟩
    · simp
    · simp [marked]

theorem fits_insert (fits : layout.Fits marks) (point offset : Nat) :
    layout.Fits (marks.insert point offset) := fits

theorem Marked.mono {stops : List Stop} (marked : layout.Marked marks stops)
    (grows : layout.Grows marks later) :
    layout.Marked later stops := by
  intro stop isStop
  obtain ⟨point, offset, same, known⟩ := marked stop isStop
  exact ⟨point, offset, same, grows _ _ known⟩

theorem marked_append {stops others : List Stop} :
    layout.Marked marks (stops ++ others) ↔ layout.Marked marks stops ∧ layout.Marked marks others := by
  simp only [Marked, List.mem_append]
  exact ⟨fun marked => ⟨fun stop known => marked stop (.inl known),
    fun stop known => marked stop (.inr known)⟩,
    fun ⟨first, second⟩ stop known => known.elim (first stop) (second stop)⟩

end Layout

namespace Ways

variable {α : Type}

/-- What the ways come to first, in the order of preference. -/
def stops : Ways α → List Stop
  | .fail => []
  | .answer _ => [none]
  | .orElse first second => first.stops ++ (second ()).stops
  | .meet point offset _ => [some (point, offset)]

/-- The meetings are those of the layout, and what follows each is what the layout says; of a meeting
below itself nothing is asked. -/
def Lawful (layout : Layout) : Ways α → (Nat → Nat → Prop) → Prop
  | .fail, _ => True
  | .answer _, _ => True
  | .orElse first second, above => first.Lawful layout above ∧ (second ()).Lawful layout above
  | .meet point offset next, above =>
    point < layout.width ∧ layout.start ≤ offset ∧
      (above point offset ∨
        (∃ place, place.In layout.text ∧ place.offset = offset ∧
          (next ()).stops = layout.law point place) ∧
        (next ()).Lawful layout fun other place =>
          (other = point ∧ place = offset) ∨ above other place)

variable {layout : Layout} {tree : Ways α} {marks other : Marks} {above : Nat → Nat → Prop}

theorem explore_orElse_of_none {first : Ways α} {second : Unit → Ways α} {later : Marks}
    (failed : first.explore marks = (none, later)) :
    (orElse first second).explore marks = (second ()).explore later := by
  simp [explore, failed]

theorem explore_orElse_of_some {first : Ways α} {second : Unit → Ways α} {found : α} {later : Marks}
    (answered : first.explore marks = (some found, later)) :
    (orElse first second).explore marks = (some found, later) := by
  simp [explore, answered]

theorem explore_meet_of_mark {point offset : Nat} {next : Unit → Ways α}
    (known : marks.contains point offset = true) :
    (meet point offset next).explore marks = (none, marks) := by
  simp [explore, known]

theorem explore_meet_of_no_mark {point offset : Nat} {next : Unit → Ways α}
    (unmarked : ¬marks.contains point offset = true) :
    (meet point offset next).explore marks = (next ()).explore (marks.insert point offset) := by
  simp [explore, unmarked]

theorem fits_explore (fits : layout.Fits marks) : layout.Fits (tree.explore marks).2 := by
  induction tree generalizing marks with
  | fail => exact fits
  | answer _ => exact fits
  | orElse first second ihFirst ihSecond =>
    have reached := ihFirst fits
    match result : first.explore marks with
    | (some found, later) =>
      rw [explore_orElse_of_some result]
      rw [result] at reached
      exact reached
    | (none, later) =>
      rw [explore_orElse_of_none result]
      rw [result] at reached
      exact ihSecond () reached
  | meet point offset next ih =>
    by_cases known : marks.contains point offset = true
    · rw [explore_meet_of_mark known]
      exact fits
    · rw [explore_meet_of_no_mark known]
      exact ih () (Layout.fits_insert fits point offset)

/-- Nothing is left to try where all ways come to what is marked. -/
theorem explore_of_marked (marked : layout.Marked marks tree.stops) :
    tree.explore marks = (none, marks) := by
  induction tree with
  | fail => rfl
  | answer found =>
    obtain ⟨_, _, wrong, _⟩ := marked none (by simp [stops])
    cases wrong
  | orElse first second ihFirst ihSecond =>
    obtain ⟨isFirst, isSecond⟩ := Layout.marked_append.1 marked
    simp only [explore, ihFirst isFirst]
    exact ihSecond () isSecond
  | meet point offset next =>
    obtain ⟨_, _, same, _, _, known⟩ := marked (some (point, offset)) (by simp [stops])
    cases same
    simp [explore, known]

theorem covered_insert {point offset : Nat} (fits : layout.Fits marks) (known : point < layout.width)
    (reached : layout.start ≤ offset)
    (covered : ∀ point offset, above point offset → layout.Has marks point offset) (other place : Nat)
    (isAbove : (other = point ∧ place = offset) ∨ above other place) :
    layout.Has (marks.insert point offset) other place :=
  (Layout.has_insert fits known reached).2 (isAbove.imp_right (covered other place))

theorem grows_explore (lawful : tree.Lawful layout above) (fits : layout.Fits marks)
    (covered : ∀ point offset, above point offset → layout.Has marks point offset) :
    layout.Grows marks (tree.explore marks).2 := by
  induction tree generalizing marks above with
  | fail => exact fun _ _ known => known
  | answer _ => exact fun _ _ known => known
  | orElse first second ihFirst ihSecond =>
    have reached : layout.Fits (first.explore marks).2 := fits_explore fits
    have grows := ihFirst lawful.1 fits covered
    match result : first.explore marks with
    | (some found, later) =>
      rw [explore_orElse_of_some result]
      rw [result] at grows
      exact grows
    | (none, later) =>
      rw [explore_orElse_of_none result]
      rw [result] at reached grows
      have rest := ihSecond () lawful.2 reached fun _ _ isAbove => grows _ _ (covered _ _ isAbove)
      exact fun _ _ known => rest _ _ (grows _ _ known)
  | meet point offset next ih =>
    by_cases known : marks.contains point offset = true
    · rw [explore_meet_of_mark known]
      exact fun _ _ known => known
    · rw [explore_meet_of_no_mark known]
      obtain ⟨valid, inside, isAbove | ⟨_, lawful⟩⟩ := lawful
      · exact absurd (covered _ _ isAbove).2.2 known
      · have rest := ih () lawful (Layout.fits_insert fits point offset)
          (covered_insert fits valid inside covered)
        exact fun _ _ known => rest _ _ ((Layout.has_insert fits valid inside).2 (.inr known))

/-- Where nothing has been found, all that the ways come to is marked; and all that follows what has
been marked on the way is marked too. -/
theorem marked_explore (lawful : tree.Lawful layout above) (fits : layout.Fits marks)
    (covered : ∀ point offset, above point offset → layout.Has marks point offset) {later : Marks}
    (failed : tree.explore marks = (none, later)) :
    layout.Marked later tree.stops ∧ ∀ point offset, layout.Has later point offset →
      layout.Has marks point offset ∨ ∃ place, place.In layout.text ∧ place.offset = offset ∧
        layout.Marked later (layout.law point place) := by
  induction tree generalizing marks later above with
  | fail =>
    cases failed
    exact ⟨by simp [stops, Layout.Marked], fun _ _ known => .inl known⟩
  | answer _ => cases failed
  | orElse first second ihFirst ihSecond =>
    match result : first.explore marks with
    | (some found, between) =>
      rw [explore_orElse_of_some result] at failed
      cases failed
    | (none, between) =>
      rw [explore_orElse_of_none result] at failed
      have reached : layout.Fits (first.explore marks).2 := fits_explore fits
      have grows := grows_explore lawful.1 fits covered
      rw [result] at reached grows
      simp only at reached grows
      have coveredBetween := fun point offset isAbove => grows point offset (covered _ _ isAbove)
      have rest := grows_explore lawful.2 reached coveredBetween
      rw [failed] at rest
      simp only at rest
      obtain ⟨isFirst, firstFresh⟩ := ihFirst lawful.1 fits covered result
      obtain ⟨isSecond, secondFresh⟩ := ihSecond () lawful.2 reached coveredBetween failed
      refine ⟨Layout.marked_append.2 ⟨isFirst.mono rest, isSecond⟩, fun point offset known => ?_⟩
      rcases secondFresh point offset known with known | found
      · exact (firstFresh point offset known).imp_right fun ⟨place, inside, same, marked⟩ =>
          ⟨place, inside, same, marked.mono rest⟩
      · exact .inr found
  | meet point offset next ih =>
    by_cases known : marks.contains point offset = true
    · rw [explore_meet_of_mark known] at failed
      cases failed
      refine ⟨?_, fun _ _ known => .inl known⟩
      intro stop isStop
      exact ⟨point, offset, List.mem_singleton.1 isStop, lawful.1, lawful.2.1, known⟩
    · rw [explore_meet_of_no_mark known] at failed
      obtain ⟨valid, inside, isAbove | ⟨⟨place, isInside, same, follows⟩, lawful⟩⟩ := lawful
      · exact absurd (covered _ _ isAbove).2.2 known
      · have reached := Layout.fits_insert fits point offset
        have coveredBelow := covered_insert fits valid inside covered
        obtain ⟨marked, fresh⟩ := ih () lawful reached coveredBelow failed
        have rest := grows_explore lawful reached coveredBelow
        rw [failed] at rest
        constructor
        · intro stop isStop
          exact ⟨point, offset, List.mem_singleton.1 isStop,
            rest _ _ ((Layout.has_insert fits valid inside).2 (.inl ⟨rfl, rfl⟩))⟩
        · intro other there known
          rcases fresh other there known with known | found
          · rcases (Layout.has_insert fits valid inside).1 known with ⟨rfl, rfl⟩ | known
            · exact .inr ⟨place, isInside, same, follows ▸ marked⟩
            · exact .inl known
          · exact .inr found

theorem marked_of_knows (lawful : tree.Lawful layout above) (known : marks.Knows tree.stops) :
    layout.Marked marks tree.stops := by
  induction tree with
  | fail => exact nofun
  | answer found =>
    obtain ⟨_, _, wrong, _⟩ := known none (List.mem_singleton.2 rfl)
    cases wrong
  | orElse first second ihFirst ihSecond =>
    simp only [Marks.Knows, stops, List.mem_append] at known
    exact Layout.marked_append.2
      ⟨ihFirst lawful.1 fun stop isFirst => known stop (.inl isFirst),
        ihSecond () lawful.2 fun stop isSecond => known stop (.inr isSecond)⟩
  | meet point offset next =>
    intro stop isStop
    obtain ⟨other, there, same, marked⟩ := known stop isStop
    cases (List.mem_singleton.1 isStop).symm.trans same
    exact ⟨point, offset, same, lawful.1, lawful.2.1, marked⟩

/-- What has led nowhere makes no difference. -/
theorem explore_beside {dead more : Marks} (lawful : tree.Lawful layout above)
    (closed : layout.Closed dead) (beside : layout.Beside dead marks more)
    (covered : ∀ point offset, above point offset → layout.Has marks point offset) :
    (tree.explore more).1 = (tree.explore marks).1 ∧ ((tree.explore marks).1 = none →
      layout.Beside dead (tree.explore marks).2 (tree.explore more).2) := by
  induction tree generalizing marks more above with
  | fail => exact ⟨rfl, fun _ => beside⟩
  | answer found => exact ⟨rfl, nofun⟩
  | orElse first second ihFirst ihSecond =>
    have start := ihFirst lawful.1 beside covered
    have grows := grows_explore lawful.1 beside.fits covered
    match result : first.explore marks, other : first.explore more with
    | (some found, between), (found?, further) =>
      rw [result, other] at start
      cases found? with
      | none => cases start.1
      | some same =>
        cases start.1
        rw [explore_orElse_of_some result, explore_orElse_of_some other]
        exact ⟨rfl, nofun⟩
    | (none, between), (found?, further) =>
      rw [result, other] at start
      cases start.1
      rw [explore_orElse_of_none result, explore_orElse_of_none other]
      rw [result] at grows
      exact ihSecond () lawful.2 (start.2 rfl) fun _ _ isAbove => grows _ _ (covered _ _ isAbove)
  | meet point offset next ih =>
    obtain ⟨valid, inside, lawful⟩ := lawful
    by_cases known : marks.contains point offset = true
    · obtain ⟨_, _, knownMore⟩ := (beside.has_iff _ _).2 (.inl ⟨valid, inside, known⟩)
      rw [explore_meet_of_mark known, explore_meet_of_mark knownMore]
      exact ⟨rfl, fun _ => beside⟩
    · rw [explore_meet_of_no_mark known]
      obtain isAbove | ⟨⟨place, isInside, same, follows⟩, lawful⟩ := lawful
      · exact absurd (covered _ _ isAbove).2.2 known
      have coveredBelow := covered_insert beside.fits valid inside covered
      by_cases knownMore : more.contains point offset = true
      · rw [explore_meet_of_mark knownMore]
        have isDead := ((beside.has_iff _ _).1 ⟨valid, inside, knownMore⟩).resolve_left
          fun ⟨_, _, wrong⟩ => known wrong
        have besideBelow : layout.Beside dead (marks.insert point offset) more :=
          ⟨Layout.fits_insert beside.fits point offset, beside.fitsMore, fun other there => by
            rw [beside.has_iff, Layout.has_insert beside.fits valid inside]
            constructor
            · exact fun known => known.imp_left .inr
            · rintro ((⟨rfl, rfl⟩ | known) | known)
              · exact .inr isDead
              · exact .inl known
              · exact .inr known⟩
        have marked : layout.Marked more (next ()).stops :=
          (marked_of_knows lawful (follows ▸ closed _ _ isDead place isInside same)).mono
            fun _ _ known => (beside.has_iff _ _).2 (.inr known)
        have below := ih () lawful besideBelow coveredBelow
        rw [explore_of_marked marked] at below
        exact below
      · rw [explore_meet_of_no_mark knownMore]
        refine ih () lawful ⟨Layout.fits_insert beside.fits point offset,
          Layout.fits_insert beside.fitsMore point offset, fun other there => ?_⟩ coveredBelow
        rw [Layout.has_insert beside.fitsMore valid inside, beside.has_iff,
          Layout.has_insert beside.fits valid inside, or_assoc]

end Ways

end Highlighter
