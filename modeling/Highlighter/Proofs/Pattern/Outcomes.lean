import Highlighter.Pattern.Search.First
import Highlighter.Proofs.Pattern.Onward

/-!
What a pattern matches, part by part: the list of all reaches that it comes to, in the order of
preference. A match is always one of them (`mem_outcomes_of_matchAt`); if no round of an unbounded
repetition takes nothing, it is the first (`matchAt_eq_head?`).
-/

set_option autoImplicit false

namespace Highlighter

namespace Outcomes

def prefer (eager : Bool) (goOn leave : List Reach) : List Reach :=
  if eager then goOn ++ leave else leave ++ goOn

variable (body : Reach → List Reach) (eager : Bool)

def exactly : Nat → Reach → List Reach
  | 0, reach => [reach]
  | count + 1, reach => (body reach).flatMap (exactly count)

def upTo : Nat → Reach → List Reach
  | 0, reach => [reach]
  | count + 1, reach => prefer eager ((body reach).flatMap (upTo count)) [reach]

/-- Any number of rounds, but with none left there is no way on. -/
def fewer : Nat → Reach → List Reach
  | 0, _ => []
  | count + 1, reach => prefer eager ((body reach).flatMap (fewer count)) [reach]

/-- One round, and then as many more as there are characters left. -/
def oneOrMore (reach : Reach) : List Reach :=
  (body reach).flatMap (upTo body eager reach.place.rest.length)

end Outcomes

namespace Pattern

open Trial Outcomes

/-- The reach behind these characters, if they follow. -/
def through? : List Char → Reach → Option Reach
  | [], reach => some reach
  | c :: chars, reach => (behind? (· = c) reach).bind (through? chars)

def close (index : Nat) (reach : Reach) : Reach :=
  if index = 1 then { reach with context := some reach.place } else reach

/-- All reaches that a pattern comes to, the preferred one first. -/
def outcomes : Pattern → Reach → List Reach
  | .empty, reach => [reach]
  | .literal chars, reach => (through? chars reach).toList
  | .set chars, reach => (behind? chars.contains reach).toList
  | .assert condition, reach => if condition.holds reach.place then [reach] else []
  | .group index body, reach => (body.outcomes reach).map (close index)
  | .seq first second, reach => (first.outcomes reach).flatMap second.outcomes
  | .alt first second, reach => first.outcomes reach ++ second.outcomes reach
  | .rounds least (some most) eager body, reach =>
    (exactly body.outcomes least reach).flatMap (upTo body.outcomes eager (most - least))
  | .rounds 0 none eager body, reach =>
    if body.isSolid then fewer body.outcomes eager (reach.place.rest.length + 1) reach
    else prefer eager (oneOrMore body.outcomes eager reach) [reach]
  | .rounds (least + 1) none eager body, reach =>
    (exactly body.outcomes least reach).flatMap (oneOrMore body.outcomes eager)

section

variable {α : Type}

abbrev answersBehind (reaches : List Reach) (next : Trial α) : List α :=
  reaches.flatMap fun later => (next later).answers

theorem flatMap_prefer (eager : Bool) (goOn leave : List Reach) (next : Reach → List α) :
    (prefer eager goOn leave).flatMap next =
      if eager then goOn.flatMap next ++ leave.flatMap next
      else leave.flatMap next ++ goOn.flatMap next := by
  cases eager <;> simp [prefer]

theorem answers_take (chars : List Char) (next : Trial α) (reach : Reach) :
    (take chars next reach).answers = answersBehind (through? chars reach).toList next := by
  induction chars generalizing reach with
  | nil => simp [take, through?]
  | cons c chars ih =>
    rw [take_cons, through?]
    cases behind? (· = c) reach with
    | none => rfl
    | some later => exact ih later

variable {body : Nat → Trial α → Trial α} {reaches : Reach → List Reach} {eager : Bool}
  {width : Nat}

theorem answers_copies
    (same : ∀ base next reach, (body base next reach).answers = answersBehind (reaches reach) next)
    (base count : Nat) (next : Trial α) (reach : Reach) :
    (copies body width base count next reach).answers =
      answersBehind (exactly reaches count reach) next := by
  induction count generalizing base reach with
  | zero => simp [copies, exactly]
  | succ count ih =>
    simp only [copies, exactly, same, answersBehind, List.flatMap_assoc]
    simp only [ih]

theorem answers_atMost
    (same : ∀ base next reach, (body base next reach).answers = answersBehind (reaches reach) next)
    (base count : Nat) (next : Trial α) (reach : Reach) :
    (atMost body eager width base count next reach).answers =
      answersBehind (upTo reaches eager count reach) next := by
  induction count generalizing base reach with
  | zero => simp [atMost, upTo]
  | succ count ih =>
    simp only [atMost, upTo, Ways.answers_either, flatMap_prefer, same, answersBehind,
      List.flatMap_assoc, List.flatMap_singleton]
    simp only [ih]

theorem answers_any {body : Trial α → Trial α}
    (same : ∀ next reach, (body next reach).answers = answersBehind (reaches reach) next)
    (point : Nat) (next : Trial α) (reach : Reach) :
    (any body eager point next reach).answers =
      answersBehind (fewer reaches eager (reach.place.rest.length + 1) reach) next := by
  unfold any
  generalize reach.place.rest = rest
  induction rest generalizing reach with
  | nil =>
    simp [loop, Trial.meet, Ways.answers, Ways.answers_either, same, answersBehind, fewer,
      flatMap_prefer, List.flatMap_assoc]
  | cons c rest ih =>
    rw [List.length_cons]
    generalize rest.length + 1 = count at ih ⊢
    simp only [loop, Trial.meet, Ways.answers, Ways.answers_either, same, answersBehind, fewer,
      flatMap_prefer, List.flatMap_assoc, List.flatMap_singleton, ih]

theorem answers_many {body : Trial α → Trial α}
    (same : ∀ next reach, (body next reach).answers = answersBehind (reaches reach) next)
    (point : Nat) (next : Trial α) (reach : Reach) :
    (many body eager point next reach).answers =
      answersBehind (oneOrMore reaches eager reach) next := by
  unfold many oneOrMore
  generalize reach.place.rest = rest
  induction rest generalizing reach with
  | nil =>
    simp [loop, Trial.meet, Ways.answers, Ways.answers_either, same, answersBehind, upTo]
  | cons c rest ih =>
    rw [loop, List.length_cons]
    simp only [Trial.meet, Ways.answers, Ways.answers_either, same, answersBehind,
      List.flatMap_assoc, upTo, ih, flatMap_prefer, List.flatMap_singleton]

/-- The ways through a pattern answer behind its outcomes. -/
theorem answers_run (pattern : Pattern) (base : Nat) (next : Trial α) (reach : Reach) :
    (pattern.run base next reach).answers = answersBehind (pattern.outcomes reach) next := by
  induction pattern generalizing base next reach with
  | empty => simp [run, outcomes]
  | literal chars => exact answers_take chars next reach
  | set chars =>
    rw [run_set, outcomes]
    cases behind? chars.contains reach with
    | none => rfl
    | some later => simp
  | assert condition =>
    simp only [run, outcomes]
    split
    · simp
    · rfl
  | group index body ih =>
    rw [run, ih, outcomes, answersBehind, answersBehind, List.flatMap_map]
    rfl
  | seq first second ihFirst ihSecond =>
    rw [run, ihFirst, outcomes, answersBehind, answersBehind, List.flatMap_assoc]
    simp only [ihSecond]
  | alt first second ihFirst ihSecond =>
    simp only [run, Ways.answers, ihFirst, ihSecond, outcomes, answersBehind, List.flatMap_append,
      Trial.meet]
  -- What follows a repetition follows each of its rounds, so the answers can be put together again.
  | rounds least most eager body ih =>
    cases most with
    | some most =>
      rw [run, outcomes, answersBehind, List.flatMap_assoc]
      by_cases same : most = least
      · subst same
        simp [answers_copies ih, upTo]
      · simp only [same, if_false, answers_copies ih, answersBehind]
        simp only [answers_atMost ih, answersBehind, Trial.meet, Ways.answers]
    | none =>
      cases least with
      | zero =>
        cases solid : body.isSolid
        · simp [run, outcomes, solid, Ways.answers_either, flatMap_prefer, answersBehind,
            answers_many (ih (base + 2)), Trial.meet, Ways.answers]
        · simp [run, outcomes, solid, answers_any (ih (base + 2))]
      | succ least =>
        rw [run, outcomes, answersBehind, List.flatMap_assoc]
        simp only [Nat.add_one_ne_zero, if_false, Nat.add_sub_cancel, answers_copies ih,
          answersBehind]
        simp only [answers_many (ih _), answersBehind]

end

theorem answers_ways (pattern : Pattern) (place : Place) :
    (pattern.ways place).answers = pattern.outcomes { place } := by
  simp [ways, answers_run, answersBehind, Ways.answers]

theorem mem_outcomes_of_matchAt {pattern : Pattern} {place : Place} {reach : Reach}
    (found : pattern.matchAt place = some reach) : reach ∈ pattern.outcomes { place } := by
  rw [← answers_ways]
  match explored : (pattern.ways place).explore (pattern.unmarked place) with
  | (found?, later) =>
    rw [matchAt, explored] at found
    cases found
    exact Ways.mem_answers_of_explore explored

theorem matchAt_eq_pruned {pattern : Pattern} {text : List Char} {place : Place} (inside : place.In text) :
    pattern.matchAt place = ((pattern.ways place).pruned []).head? := by
  obtain ⟨law, isLaw⟩ := exists_isLaw pattern
  exact Ways.explore_eq_head? (isLaw text place.offset place inside (Nat.le_refl _)) ⟨rfl, Nat.le_refl _⟩
    fun _ _ => not_has_unmarked

/-- The preferred match is the first outcome. -/
theorem matchAt_eq_head? {pattern : Pattern} {text : List Char} {place : Place}
    (advances : pattern.advances = true) (inside : place.In text) :
    pattern.matchAt place = (pattern.outcomes { place }).head? := by
  have clear := clear_run_answer advances { place }
  rw [← Ways.among_nil] at clear
  rw [matchAt_eq_pruned inside, ways, Ways.pruned_of_clear clear, ← ways, answers_ways]

end Pattern

end Highlighter
