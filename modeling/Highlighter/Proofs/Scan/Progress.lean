import Highlighter.Proofs.Scan.Gaps
import Highlighter.Proofs.Scan.WellFormed

/-!
How a probe gets through its text. Whatever is asked of it, the place where it goes on searching never moves
back (`Asked.Becomes.resumeAt_le`), and it moves on with each match that a search finds. So all calls
together find no more matches than there are places (`Asked.Becomes.count_found`) and search in vain at most
once (`Asked.Becomes.count_missed`), and each call comes to an end (`Probe.Comes.advance`).
-/

set_option autoImplicit false

namespace Highlighter

variable {Inner : Type} {rule : RuleOf Inner} {text : List Char} {cursor place : Place}

namespace Probe

variable {probe later : Probe}

/-- The byte where the probe goes on searching. If nothing is left, that is the one behind the end of the
text. -/
def resumeAt (text : List Char) (probe : Probe) : Nat :=
  match probe.resume with
  | some place => place.offset
  | none => byteLength text + 1

theorem resumeAt_boundary (inside : ∀ place ∈ probe.resume, place.In text) :
    isBoundary text (probe.resumeAt text) = true ∨ probe.resumeAt text = byteLength text + 1 := by
  unfold resumeAt
  match isResume : probe.resume with
  | none => exact .inr rfl
  | some place => exact .inl (inside place isResume).isBoundary

theorem lt_resumeAt (inside : place.In text) (goesOn : probe.resume = place.next?) :
    place.offset < probe.resumeAt text := by
  unfold resumeAt
  rw [goesOn]
  match isNext : place.next? with
  | none => exact Nat.lt_succ_of_le inside.offset_le
  | some next => exact Place.lt_next? isNext

theorem Covers.resumeAt_le (covers : probe.Covers rule text cursor place) :
    probe.resumeAt text ≤ place.offset := by
  obtain ⟨next, isResume, order⟩ := covers.resumes
  unfold resumeAt
  rw [isResume]
  exact order

theorem Comes.stepUnlessSettled (comes : Comes rule cursor probe later) :
    Comes rule cursor probe (later.stepUnlessSettled rule cursor) := by
  cases settled : later.isSettled with
  | true => rwa [stepUnlessSettled_of_settled settled]
  | false =>
    rw [stepUnlessSettled_of_unsettled settled]
    exact comes.search settled

theorem Comes.advance (comes : Comes rule cursor probe later) (rest : List Char) :
    Comes rule cursor probe (Probe.advance rule cursor rest later) := by
  induction rest generalizing later with
  | nil => exact comes.stepUnlessSettled.stepUnlessSettled
  | cons c rest ih =>
    unfold Probe.advance
    cases settled : later.isSettled with
    | true => exact comes
    | false => exact ih (comes.search settled)

end Probe

/-- A probe, and the cursor at which it has been asked last. -/
structure Asked where
  cursor : Place
  probe : Probe

namespace Asked

variable {state later : Asked} {turns : List Asked}

/-- A new probe. No cursor lies before that of its first call. -/
def start (text : List Char) : Asked := ⟨.first text, .start text⟩

def call (state : Asked) (cursor : Place) : Asked := ⟨cursor, state.probe.dropPassed cursor⟩

def turn (rule : RuleOf Inner) (state : Asked) : Asked :=
  { state with probe := state.probe.step rule state.cursor }

/-- Where the search of a turn begins, if there is anything left to search. -/
def place? (rule : RuleOf Inner) (state : Asked) : Option Place :=
  state.probe.resumeFor rule state.cursor

/-- The match that the search of a turn finds. -/
def found? (rule : RuleOf Inner) (state : Asked) : Option Match :=
  (state.place? rule).bind fun place => (rule.search place state.probe.closer).1

theorem found?_eq (isPlace : state.place? rule = some place) :
    state.found? rule = (rule.search place state.probe.closer).1 := by
  rw [found?, isPlace, Option.bind_some]

/-- What becomes of a probe by turns and calls, in any order in which the cursor does not go back. The
list holds the states in which a turn was made. -/
inductive Becomes (rule : RuleOf Inner) (text : List Char) (state : Asked) :
    List Asked → Asked → Prop where
  | refl : Becomes rule text state [] state
  | call {turns : List Asked} {later : Asked} {cursor : Place} : Becomes rule text state turns later →
      cursor.In text → later.cursor.offset ≤ cursor.offset →
      Becomes rule text state turns (later.call cursor)
  | turn {turns : List Asked} {later : Asked} : Becomes rule text state turns later →
      later.probe.isSettled = false → Becomes rule text state (turns ++ [later]) (later.turn rule)

structure Sound (rule : RuleOf Inner) (text : List Char) (state : Asked) : Prop where
  inside : state.cursor.In text
  probe : state.probe.Sound rule text state.cursor

theorem sound_start : (start text).Sound rule text := ⟨Place.first_in text, Probe.sound_start⟩

theorem Becomes.sound (becomes : Becomes rule text state turns later) (sound : state.Sound rule text) :
    later.Sound rule text := by
  induction becomes with
  | refl => exact sound
  | call _ inside order ih => exact ⟨inside, ih.probe.dropPassed order⟩
  | turn _ unsettled ih => exact ⟨ih.inside, ih.probe.step ih.inside unsettled⟩

/-- What a turn does: nothing is left to search; or it searches from some place on in vain; or it finds a
match there, and the probe goes on behind the start of that. -/
theorem Sound.turn_cases (sound : state.Sound rule text) :
    (state.place? rule = none ∧ state.found? rule = none ∧ (state.turn rule).probe.exhausted = true ∧
        (state.turn rule).probe.resumeAt text = state.probe.resumeAt text) ∨
      ∃ place, state.place? rule = some place ∧ place.In text ∧
        state.probe.resumeAt text ≤ place.offset ∧
        ((state.found? rule = none ∧ (state.turn rule).probe.exhausted = true ∧
            (state.turn rule).probe.resumeAt text = place.offset) ∨
          ∃ found, state.found? rule = some found ∧ found.context.In text ∧
            (state.turn rule).probe.exhausted = state.probe.exhausted ∧
            place.offset < (state.turn rule).probe.resumeAt text ∧
            (state.turn rule).probe.searches < state.probe.searches) := by
  obtain ⟨inside, sound⟩ := sound
  rcases sound.step_cases inside with ⟨nowhere, result⟩ | ⟨place, isPlace, covers, searched⟩
  · refine .inl ⟨nowhere, by rw [found?, place?, nowhere, Option.bind_none], ?_⟩
    rw [turn, result]
    exact ⟨rfl, rfl⟩
  · refine .inr ⟨place, isPlace, covers.inside, covers.resumeAt_le, ?_⟩
    rcases searched with ⟨nothing, _, result⟩ | ⟨found, reach, closer, isFound, isFirst, _, _, result⟩
    · refine .inl ⟨(found?_eq isPlace).trans nothing, ?_⟩
      rw [turn, result]
      exact ⟨rfl, rfl⟩
    · obtain ⟨contextInside, order, _, _⟩ := (Pattern.firstMatch_eq_some_iff covers.inside).1 isFirst
      have goesOn : (state.turn rule).probe.resume = found.context.next? := by rw [turn, result]
      refine .inr ⟨found, (found?_eq isPlace).trans isFound, contextInside, by rw [turn, result], ?_,
        sound.searches_lt covers contextInside order goesOn⟩
      exact Nat.lt_of_le_of_lt order (Probe.lt_resumeAt contextInside goesOn)

/-- A turn that finds nothing exhausts the probe, and one that finds a match uses up a search. -/
theorem Sound.exhausts_or_finds (sound : state.Sound rule text) :
    (state.found? rule = none ∧ (state.turn rule).probe.exhausted = true) ∨
      ∃ found, state.found? rule = some found ∧
        (state.turn rule).probe.exhausted = state.probe.exhausted ∧
        (state.turn rule).probe.searches < state.probe.searches := by
  rcases sound.turn_cases with ⟨_, nothing, exhausted, _⟩ |
    ⟨_, _, _, _, ⟨nothing, exhausted, _⟩ | ⟨found, isFound, _, same, _, fewer⟩⟩
  · exact .inl ⟨nothing, exhausted⟩
  · exact .inl ⟨nothing, exhausted⟩
  · exact .inr ⟨found, isFound, same, fewer⟩

theorem Sound.resumeAt_le_turn (sound : state.Sound rule text) :
    state.probe.resumeAt text ≤ (state.turn rule).probe.resumeAt text := by
  rcases sound.turn_cases with ⟨_, _, _, same⟩ |
    ⟨_, _, _, ahead, ⟨_, _, same⟩ | ⟨_, _, _, _, further, _⟩⟩
  · exact Nat.le_of_eq same.symm
  · exact Nat.le_trans ahead (Nat.le_of_eq same.symm)
  · exact Nat.le_trans ahead (Nat.le_of_lt further)

/-- The place to go on from never moves back. -/
theorem Becomes.resumeAt_le (becomes : Becomes rule text state turns later)
    (sound : state.Sound rule text) : state.probe.resumeAt text ≤ later.probe.resumeAt text := by
  induction becomes with
  | refl => exact Nat.le_refl _
  | call _ _ _ ih => exact ih
  | turn becomes _ ih => exact Nat.le_trans ih (becomes.sound sound).resumeAt_le_turn

/-- The matches that can still be found, none of them once the probe is exhausted. -/
def budget (state : Asked) : Nat := if state.probe.exhausted then 0 else state.probe.searches

/-- Each match that is found is one of those that could be. -/
theorem Becomes.count_found (becomes : Becomes rule text state turns later)
    (sound : state.Sound rule text) :
    turns.countP (fun turn => (turn.found? rule).isSome) + later.budget ≤ state.budget := by
  induction becomes with
  | refl => simp
  | call _ _ _ ih => exact ih
  | @turn turns later becomes unsettled ih =>
    have running := (Probe.unsettled_iff.1 unsettled).1
    rw [List.countP_append, List.countP_singleton]
    rcases (becomes.sound sound).exhausts_or_finds with
      ⟨nothing, exhausted⟩ | ⟨found, isFound, same, fewer⟩
    · have spent : (later.turn rule).budget = 0 := by rw [budget, exhausted, if_pos rfl]
      rw [nothing, spent]
      exact Nat.le_trans (Nat.le_add_right _ _) ih
    · have less : (later.turn rule).budget < later.budget := by
        simpa only [budget, same, running, Bool.false_eq_true, if_false] using fewer
      rw [isFound, Option.isSome_some, if_pos rfl]
      omega

/-- A probe that has found nothing once makes no more turns. -/
theorem Becomes.count_missed (becomes : Becomes rule text state turns later)
    (sound : state.Sound rule text) :
    turns.countP (fun turn => (turn.found? rule).isNone) + (!later.probe.exhausted).toNat ≤
      (!state.probe.exhausted).toNat := by
  induction becomes with
  | refl => simp
  | call _ _ _ ih => exact ih
  | @turn turns later becomes unsettled ih =>
    have running := (Probe.unsettled_iff.1 unsettled).1
    rw [List.countP_append, List.countP_singleton]
    rw [running] at ih
    rcases (becomes.sound sound).exhausts_or_finds with ⟨nothing, exhausted⟩ | ⟨found, isFound, same, _⟩
    · rw [nothing, exhausted]
      exact ih
    · rw [isFound, same, running]
      exact ih

/-- A turn that searches from this place moves forward in the text. It begins between two characters, not
before the place to go on from, and so does the search for a closer, which begins where a match ends. From the
start of a match the text can be cut, and the probe goes on further than it has searched from. -/
structure GoesForward (rule : RuleOf Inner) (text : List Char) (turn : Asked) (place : Place) : Prop where
  inside : isBoundary text place.offset = true ∧ place.offset ≤ byteLength text
  ahead : turn.probe.resumeAt text ≤ place.offset ∧
    place.offset ≤ (turn.turn rule).probe.resumeAt text
  closer : ∀ first ∈ rule.opening.search place,
    isBoundary text first.2.place.offset = true ∧ first.2.place.offset ≤ byteLength text
  found : ∀ found ∈ turn.found? rule,
    dropBytes? text found.context.offset = some found.context.rest ∧
      place.offset < (turn.turn rule).probe.resumeAt text

theorem Sound.goesForward (sound : state.Sound rule text) (isPlace : state.place? rule = some place) :
    state.GoesForward rule text place := by
  rcases sound.turn_cases with ⟨nowhere, _⟩ | ⟨other, isOther, inside, ahead, searched⟩
  · rw [nowhere] at isPlace
    cases isPlace
  · obtain rfl : other = place := Option.some.inj (isOther.symm.trans isPlace)
    refine ⟨⟨inside.isBoundary, inside.offset_le⟩, ?_, fun first isFirst => ?_, ?_⟩
    · rcases searched with ⟨_, _, same⟩ | ⟨_, _, _, _, further, _⟩
      · exact ⟨ahead, Nat.le_of_eq same.symm⟩
      · exact ⟨ahead, Nat.le_of_lt further⟩
    · obtain ⟨_, _, _, reachInside⟩ := Pattern.bounds_of_search inside isFirst
      exact ⟨reachInside.isBoundary, reachInside.offset_le⟩
    · intro found isFound
      rcases searched with ⟨nothing, _⟩ | ⟨other, isOther, contextInside, _, further, _⟩
      · rw [nothing] at isFound
        cases isFound
      · obtain rfl : other = found := Option.some.inj (isOther.symm.trans isFound)
        exact ⟨contextInside.dropBytes?, further⟩

theorem Becomes.goesForward (becomes : Becomes rule text state turns later)
    (sound : state.Sound rule text) :
    ∀ turn ∈ turns, ∀ place ∈ turn.place? rule, turn.GoesForward rule text place := by
  induction becomes with
  | refl => exact List.forall_mem_nil _
  | call _ _ _ ih => exact ih
  | turn becomes _ ih =>
    refine List.forall_mem_append.2 ⟨ih, List.forall_mem_singleton.2 fun place isPlace => ?_⟩
    exact (becomes.sound sound).goesForward isPlace

/-- A call is made of turns. -/
theorem exists_becomes_of_comes {probe : Probe} (inside : cursor.In text)
    (order : state.cursor.offset ≤ cursor.offset) (comes : Probe.Comes rule cursor state.probe probe) :
    ∃ turns, Becomes rule text state turns ⟨cursor, probe⟩ := by
  induction comes with
  | start => exact ⟨[], .call .refl inside order⟩
  | search _ unsettled ih =>
    obtain ⟨turns, becomes⟩ := ih
    exact ⟨_, becomes.turn unsettled⟩

/-- Whatever is asked of a probe, it goes on from a place of the text or from behind it, and later never from
before that. Its searches begin in the text; as many as there are places find a match at most, each going
further, and one at most finds none. Each call ends. -/
theorem moves_forward (rule : RuleOf Inner) (text : List Char) {turns : List Asked} {state : Asked}
    (becomes : Becomes rule text (start text) turns state) :
    (isBoundary text (state.probe.resumeAt text) = true ∨
        state.probe.resumeAt text = byteLength text + 1) ∧
      (∀ more later, Becomes rule text state more later →
        state.probe.resumeAt text ≤ later.probe.resumeAt text) ∧
      (∀ turn ∈ turns, ∀ place ∈ turn.place? rule, turn.GoesForward rule text place) ∧
      turns.countP (fun turn => (turn.found? rule).isSome) ≤ text.length + 1 ∧
      turns.countP (fun turn => (turn.found? rule).isNone) ≤ 1 ∧
      ∀ cursor : Place, cursor.In text → state.cursor.offset ≤ cursor.offset →
        Probe.Comes rule cursor state.probe (state.probe.next rule cursor).2 ∧
          (state.probe.next rule cursor).2.isSettled = true ∧
          ∃ more, Becomes rule text state more ⟨cursor, (state.probe.next rule cursor).2⟩ := by
  have started : (start text).Sound rule text := sound_start
  have sound := becomes.sound started
  refine ⟨Probe.resumeAt_boundary sound.probe.resumeInside, fun more later onward => onward.resumeAt_le sound,
    becomes.goesForward started, ?_, ?_, fun cursor inside order => ?_⟩
  · exact Nat.le_trans (Nat.le_add_right _ _) (becomes.count_found started)
  · exact Nat.le_trans (Nat.le_add_right _ _) (becomes.count_missed started)
  · have comes : Probe.Comes rule cursor state.probe (state.probe.next rule cursor).2 :=
      Probe.Comes.start.advance _
    have dropped := sound.probe.dropPassed order
    exact ⟨comes, (dropped.advance inside _ (Probe.searches_le_left _)).2,
      exists_becomes_of_comes inside order comes⟩

/-- Three searches of `ax` for any number of letters x find a match, the first and the last of them an empty
one, and behind the end of the text the fourth turn has nothing left to search. -/
theorem moves_forward_anyX :
    ∃ turns state, Becomes RuleTable.anyX ['a', 'x'] (start ['a', 'x']) turns state ∧
      state.cursor = Place.nth ['a', 'x'] 2 ∧ state.probe.resumeAt ['a', 'x'] = 3 ∧ turns.length = 4 ∧
      turns.countP (fun turn => (turn.found? RuleTable.anyX).isSome) ≤ 3 ∧
      turns.countP (fun turn => (turn.found? RuleTable.anyX).isNone) ≤ 1 := by
  have first : Becomes RuleTable.anyX ['a', 'x'] (start ['a', 'x']) _ _ := (Becomes.refl.turn rfl).turn rfl
  have called := first.call (Place.nth_in ['a', 'x'] 2) (by decide)
  have second := (called.turn rfl).turn rfl
  obtain ⟨_, _, _, found, missed, _⟩ := moves_forward RuleTable.anyX ['a', 'x'] second
  exact ⟨_, _, second, rfl, rfl, rfl, found, missed⟩

end Asked

end Highlighter
