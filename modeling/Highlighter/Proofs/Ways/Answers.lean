import Highlighter.Pattern.Ways.Layout

/-!
What exploring finds, said without marks: the first answer of the ways, each of which is cut where it comes to
a meeting for the second time (`explore_eq_head?`). Ways that come to no meeting twice need not be cut
(`pruned_of_clear`).
-/

set_option autoImplicit false

namespace Highlighter

namespace Ways

variable {α : Type}

/-- All answers in the order of preference, with nothing left out where ways meet. -/
def answers : Ways α → List α
  | .fail => []
  | .answer found => [found]
  | .orElse first second => first.answers ++ (second ()).answers
  | .meet _ _ next => (next ()).answers

/-- The answers of the ways that come to no meeting twice, nor to one that has been seen before. -/
def pruned : Ways α → List (Nat × Nat) → List α
  | .fail, _ => []
  | .answer found, _ => [found]
  | .orElse first second, seen => first.pruned seen ++ (second ()).pruned seen
  | .meet point offset next, seen =>
    if (point, offset) ∈ seen then [] else (next ()).pruned ((point, offset) :: seen)

def Among (seen : List (Nat × Nat)) (point offset : Nat) : Prop := (point, offset) ∈ seen

theorem among_nil : Among [] = fun _ _ => False := by
  funext point offset
  simp [Among]

theorem among_cons (point offset : Nat) (seen : List (Nat × Nat)) :
    Among ((point, offset) :: seen) =
      fun other place => (other = point ∧ place = offset) ∨ Among seen other place := by
  funext other place
  simp [Among]

/-- No way comes to one meeting twice, nor to one that has been seen before. -/
def Clear : Ways α → (Nat → Nat → Prop) → Prop
  | .fail, _ => True
  | .answer _, _ => True
  | .orElse first second, seen => first.Clear seen ∧ (second ()).Clear seen
  | .meet point offset next, seen =>
    ¬seen point offset ∧
      (next ()).Clear fun other place => (other = point ∧ place = offset) ∨ seen other place

theorem answers_either (eager : Bool) (goOn leave : Unit → Ways α) :
    (either eager goOn leave).answers =
      if eager then (goOn ()).answers ++ (leave ()).answers
      else (leave ()).answers ++ (goOn ()).answers := by
  cases eager <;> rfl

theorem clear_either {eager : Bool} {goOn leave : Unit → Ways α} {seen : Nat → Nat → Prop}
    (first : (goOn ()).Clear seen) (second : (leave ()).Clear seen) :
    (either eager goOn leave).Clear seen := by
  cases eager
  · exact ⟨second, first⟩
  · exact ⟨first, second⟩

theorem pruned_of_clear {tree : Ways α} {seen : List (Nat × Nat)} (clear : tree.Clear (Among seen)) :
    tree.pruned seen = tree.answers := by
  induction tree generalizing seen with
  | fail => rfl
  | answer found => rfl
  | orElse first second ihFirst ihSecond => rw [pruned, answers, ihFirst clear.1, ihSecond () clear.2]
  | meet point offset next ih =>
    obtain ⟨unseen, below⟩ := clear
    rw [← among_cons] at below
    have isNew : (point, offset) ∉ seen := unseen
    rw [pruned, if_neg isNew, answers, ih () below]

theorem mem_answers_of_mem_pruned {tree : Ways α} {seen : List (Nat × Nat)} {found : α}
    (known : found ∈ tree.pruned seen) : found ∈ tree.answers := by
  induction tree generalizing seen with
  | fail => cases known
  | answer other => exact known
  | orElse first second ihFirst ihSecond =>
    exact List.mem_append.2 ((List.mem_append.1 known).imp ihFirst (ihSecond ()))
  | meet point offset next ih =>
    rw [pruned] at known
    split at known
    · cases known
    · exact ih () known

theorem mem_answers_of_explore {tree : Ways α} {marks later : Marks} {found : α}
    (explored : tree.explore marks = (some found, later)) : found ∈ tree.answers := by
  induction tree generalizing marks later with
  | fail => cases explored
  | answer other =>
    cases explored
    exact List.mem_singleton.2 rfl
  | orElse first second ihFirst ihSecond =>
    match result : first.explore marks with
    | (some other, between) =>
      rw [explore_orElse_of_some result] at explored
      cases explored
      exact List.mem_append_left _ (ihFirst result)
    | (none, between) =>
      rw [explore_orElse_of_none result] at explored
      exact List.mem_append_right _ (ihSecond () explored)
  | meet point offset next ih =>
    by_cases known : marks.contains point offset = true
    · rw [explore_meet_of_mark known] at explored
      cases explored
    · rw [explore_meet_of_no_mark known] at explored
      exact ih () explored

end Ways

namespace Layout

/-- All of these are meetings of which `dead` holds. -/
def Lost (dead : Nat → Nat → Prop) (stops : List Stop) : Prop :=
  ∀ stop ∈ stops, ∃ point offset, stop = some (point, offset) ∧ dead point offset

def Either (dead seen : Nat → Nat → Prop) (point offset : Nat) : Prop := dead point offset ∨ seen point offset

/-- From no such meeting is there a way to an answer but through one that has been seen. -/
def IsDead (layout : Layout) (dead seen : Nat → Nat → Prop) : Prop :=
  ∀ point offset, dead point offset → ∀ place, place.In layout.text → place.offset = offset →
    Lost (Either dead seen) (layout.law point place)

/-- What is marked is dead or has been seen on the way. -/
def Splits (layout : Layout) (marks : Marks) (dead seen : Nat → Nat → Prop) : Prop :=
  ∀ point offset, point < layout.width → layout.start ≤ offset →
    (marks.contains point offset = true ↔ Either dead seen point offset)

theorem Lost.mono {dead more : Nat → Nat → Prop} {stops : List Stop} (lost : Lost dead stops)
    (grows : ∀ point offset, dead point offset → more point offset) : Lost more stops := by
  intro stop isStop
  obtain ⟨point, offset, same, isDead⟩ := lost stop isStop
  exact ⟨point, offset, same, grows _ _ isDead⟩

theorem lost_append {dead : Nat → Nat → Prop} {stops others : List Stop} :
    Lost dead (stops ++ others) ↔ Lost dead stops ∧ Lost dead others := by
  unfold Lost
  rw [List.forall_mem_append]

theorem IsDead.mono {layout : Layout} {dead seen more : Nat → Nat → Prop} (closed : layout.IsDead dead seen)
    (grows : ∀ point offset, seen point offset → more point offset) : layout.IsDead dead more := by
  intro point offset isDead place inside there
  exact (closed point offset isDead place inside there).mono fun _ _ => Or.imp_right (grows _ _)

variable {layout : Layout} {marks : Marks} {dead seen : Nat → Nat → Prop} {point offset : Nat}

theorem Splits.insert (splits : layout.Splits marks dead seen) (fits : layout.Fits marks)
    (valid : point < layout.width) (inside : layout.start ≤ offset) :
    layout.Splits (marks.insert point offset) dead
      fun other place => (other = point ∧ place = offset) ∨ seen other place := by
  intro other place otherValid otherInside
  rw [Marks.contains_insert (Nat.le_trans fits.2 inside) (Nat.le_trans fits.2 otherInside)
    (fits.1 ▸ valid) (fits.1 ▸ otherValid), Bool.or_eq_true,
    splits other place otherValid otherInside]
  simp only [Bool.and_eq_true, beq_iff_eq, Either]
  constructor
  · rintro (⟨rfl, rfl⟩ | isDead | isSeen)
    · exact .inr (.inl ⟨rfl, rfl⟩)
    · exact .inl isDead
    · exact .inr (.inr isSeen)
  · rintro (isDead | ⟨rfl, rfl⟩ | isSeen)
    · exact .inr (.inl isDead)
    · exact .inl ⟨rfl, rfl⟩
    · exact .inr (.inr isSeen)

end Layout

namespace Ways

open Layout

variable {α : Type} {layout : Layout} {tree : Ways α} {dead : Nat → Nat → Prop} {seen : List (Nat × Nat)}

theorem pruned_of_lost (lawful : tree.Lawful layout (Among seen)) (closed : layout.IsDead dead (Among seen))
    (lost : Lost (Either dead (Among seen)) tree.stops) : tree.pruned seen = [] := by
  induction tree generalizing seen with
  | fail => rfl
  | answer found =>
    obtain ⟨_, _, wrong, _⟩ := lost none (List.mem_singleton.2 rfl)
    cases wrong
  | orElse first second ihFirst ihSecond =>
    obtain ⟨isFirst, isSecond⟩ := lost_append.1 lost
    rw [pruned, ihFirst lawful.1 closed isFirst, ihSecond () lawful.2 closed isSecond]
    rfl
  | meet point offset next ih =>
    rw [pruned]
    split
    · rfl
    next unseen =>
    obtain ⟨_, _, same, known⟩ := lost (some (point, offset)) (List.mem_singleton.2 rfl)
    cases same
    have isDead := known.resolve_right unseen
    obtain ⟨⟨place, inside, there, follows⟩, below⟩ := lawful.2.2.resolve_left unseen
    have grows : ∀ other place, Among seen other place → Among ((point, offset) :: seen) other place :=
      fun _ _ => List.mem_cons_of_mem _
    rw [← among_cons] at below
    refine ih () below (closed.mono grows) ?_
    rw [follows]
    exact (closed point offset isDead place inside there).mono fun _ _ => Or.imp_right (grows _ _)

/-- What exploring leaves dead where it finds nothing: all that it has come to. -/
def Leaves (layout : Layout) (stops : List Stop) (dead seen : Nat → Nat → Prop) (later : Marks) : Prop :=
  ∃ more : Nat → Nat → Prop, layout.IsDead more seen ∧
    (∀ point offset, dead point offset → more point offset) ∧ Lost (Either more seen) stops ∧
    layout.Splits later more seen

theorem explore_of_splits {marks : Marks} (lawful : tree.Lawful layout (Among seen)) (fits : layout.Fits marks)
    (closed : layout.IsDead dead (Among seen)) (splits : layout.Splits marks dead (Among seen)) :
    (tree.explore marks).1 = (tree.pruned seen).head? ∧
      ((tree.explore marks).1 = none →
        Leaves layout tree.stops dead (Among seen) (tree.explore marks).2) := by
  induction tree generalizing marks dead seen with
  | fail => exact ⟨rfl, fun _ => ⟨dead, closed, fun _ _ known => known, nofun, splits⟩⟩
  | answer found => exact ⟨rfl, nofun⟩
  | orElse first second ihFirst ihSecond =>
    -- What the first ways leave dead stays dead for the second.
    have start := ihFirst lawful.1 fits closed splits
    have reached : layout.Fits (first.explore marks).2 := fits_explore fits
    match result : first.explore marks with
    | (some found, between) =>
      rw [result] at start
      rw [explore_orElse_of_some result, pruned, List.head?_append, ← start.1]
      exact ⟨rfl, nofun⟩
    | (none, between) =>
      rw [result] at start reached
      obtain ⟨more, moreClosed, grows, isFirst, moreSplits⟩ := start.2 rfl
      have rest := ihSecond () lawful.2 reached moreClosed moreSplits
      rw [explore_orElse_of_none result, pruned, List.head?_append, ← start.1]
      refine ⟨rest.1, fun failed => ?_⟩
      obtain ⟨most, mostClosed, growsMore, isSecond, mostSplits⟩ := rest.2 failed
      exact ⟨most, mostClosed, fun _ _ known => growsMore _ _ (grows _ _ known),
        lost_append.2 ⟨isFirst.mono fun _ _ => Or.imp_left (growsMore _ _), isSecond⟩, mostSplits⟩
  | meet point offset next ih =>
    by_cases known : marks.contains point offset = true
    · -- It is marked, so it is on the way here or has been tried in vain.
      have lost : Lost (Either dead (Among seen)) (Ways.meet point offset next).stops := by
        intro stop isStop
        exact ⟨point, offset, List.mem_singleton.1 isStop,
          (splits point offset lawful.1 lawful.2.1).1 known⟩
      rw [explore_meet_of_mark known, pruned_of_lost lawful closed lost]
      exact ⟨rfl, fun _ => ⟨dead, closed, fun _ _ known => known, lost, splits⟩⟩
    · obtain ⟨valid, inside, further⟩ := lawful
      have unseen : (point, offset) ∉ seen := fun isSeen =>
        known ((splits point offset valid inside).2 (.inr isSeen))
      obtain ⟨⟨place, placeInside, isThere, follows⟩, below⟩ := further.resolve_left unseen
      have grows : ∀ other place, Among seen other place → Among ((point, offset) :: seen) other place :=
        fun _ _ => List.mem_cons_of_mem _
      have splitsBelow := splits.insert fits valid inside
      rw [← among_cons] at below splitsBelow
      have result := ih () below (fits_insert fits point offset) (closed.mono grows) splitsBelow
      rw [explore_meet_of_no_mark known, pruned, if_neg unseen]
      refine ⟨result.1, fun failed => ?_⟩
      obtain ⟨more, moreClosed, growsMore, lost, moreSplits⟩ := result.2 failed
      -- The meeting itself is dead now, since all that follows it is.
      have moves : ∀ other there, Either more (Among ((point, offset) :: seen)) other there ↔
          Either (fun other there => (other = point ∧ there = offset) ∨ more other there) (Among seen)
            other there := by
        intro other there
        simp only [Either, among_cons]
        exact or_left_comm.trans or_assoc.symm
      refine ⟨fun other there => (other = point ∧ there = offset) ∨ more other there, ?_,
        fun _ _ isDead => .inr (growsMore _ _ isDead), ?_, ?_⟩
      · rintro other there (⟨rfl, rfl⟩ | isDead) further furtherInside same
        · rw [furtherInside.eq_of_offset placeInside (same.trans isThere.symm), ← follows]
          exact lost.mono fun _ _ => (moves _ _).1
        · exact (moreClosed other there isDead further furtherInside same).mono fun _ _ => (moves _ _).1
      · intro stop isStop
        exact ⟨point, offset, List.mem_singleton.1 isStop, .inl (.inl ⟨rfl, rfl⟩)⟩
      · intro other there otherValid otherInside
        exact (moreSplits other there otherValid otherInside).trans (moves other there)

/-- Exploring without marks finds the first of the answers. -/
theorem explore_eq_head? {marks : Marks} (lawful : tree.Lawful layout fun _ _ => False)
    (fits : layout.Fits marks) (unmarked : ∀ point offset, ¬layout.Has marks point offset) :
    (tree.explore marks).1 = (tree.pruned []).head? := by
  rw [← among_nil] at lawful
  have splits : layout.Splits marks (fun _ _ => False) (Among []) := by
    intro point offset valid inside
    simp only [Either, among_nil, or_false, iff_false]
    exact fun known => unmarked point offset ⟨valid, inside, known⟩
  exact (explore_of_splits lawful fits nofun splits).1

end Ways

end Highlighter
