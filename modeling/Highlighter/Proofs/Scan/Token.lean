import Highlighter.Proofs.Pattern.Edges
import Highlighter.Proofs.Scan.Fresh

/-!
The token of a match: where it begins and ends, for rules with leading context and for rules without,
and when it cannot have the start of another token inside it.
-/

set_option autoImplicit false

namespace Highlighter

namespace RuleOf

variable {Inner : Type} {rule : RuleOf Inner} {start : Place} {found : Match}

/-- Behind leading context, the token begins where the rest of the pattern does, and takes what that
prefers there. -/
theorem exists_context {lead body : Pattern} {text : List Char} (inside : start.In text)
    (behind : rule.lookbehind = true) (opening : rule.opening = .seq (.group 1 lead) body)
    (advances : rule.opening.advances = true) (bare : body.hasGroup = false)
    (isMatch : rule.freshMatch start = some found) :
    ∃ mid ∈ lead.outcomes { place := start }, ∃ later,
      (body.outcomes { mid with context := some mid.place }).head? = some later ∧
        found.start = mid.place ∧ found.stop = rule.freshStop later := by
  obtain ⟨later, isReach, rfl⟩ := Option.map_eq_some_iff.1 isMatch
  rw [Pattern.matchAt_eq_head? advances inside, opening] at isReach
  obtain ⟨mid, inLead, isContext, inBody⟩ := Pattern.exists_of_head?_context bare isReach
  refine ⟨mid, inLead, later, inBody, ?_, rfl⟩
  simp only [tokenStart, behind, if_true, isContext, Option.getD_some]

theorem exists_head_of_context {lead body : Pattern} {marks : CharSet} {text : List Char}
    (inside : start.In text) (behind : rule.lookbehind = true)
    (opening : rule.opening = .seq (.group 1 lead) body) (advances : rule.opening.advances = true)
    (bare : body.hasGroup = false) (starts : body.startsIn marks = true)
    (isMatch : rule.freshMatch start = some found) : ∃ c ∈ found.start.rest.head?, marks.Has c := by
  obtain ⟨mid, _, later, inBody, isStart, _⟩ :=
    exists_context inside behind opening advances bare isMatch
  have atStart := Pattern.has_head_of_startsIn starts (List.mem_of_head? inBody)
  rwa [isStart]

theorem exists_token (direct : rule.lookbehind = false) (isMatch : rule.freshMatch start = some found) :
    ∃ later ∈ rule.opening.outcomes { place := start },
      found.start = start ∧ found.stop = rule.freshStop later := by
  obtain ⟨later, isReach, rfl⟩ := Option.map_eq_some_iff.1 isMatch
  refine ⟨later, Pattern.mem_outcomes_of_matchAt isReach, ?_, rfl⟩
  simp only [tokenStart, direct, Bool.false_eq_true, if_false]

theorem freshStop_of_no_closing (noClosing : rule.closing = none) (reach : Reach) :
    rule.freshStop reach = reach.place := by
  simp only [freshStop, noClosing]

/-- Without context and closing pattern a match is what the pattern prefers. -/
theorem freshMatch_of_direct {text : List Char} (direct : rule.lookbehind = false) (noClosing : rule.closing = none)
    (advances : rule.opening.advances = true) (inside : start.In text) :
    rule.freshMatch start = (rule.opening.outcomes { place := start }).head?.map
      fun later => ⟨start, start, later.place⟩ := by
  unfold freshMatch
  rw [Pattern.matchAt_eq_head? advances inside]
  simp only [tokenStart, direct, Bool.false_eq_true, if_false, freshStop_of_no_closing noClosing]

/-- Each token of the rule begins with these characters. -/
def Opens (rule : RuleOf Inner) (chars : List Char) : Prop :=
  ∀ {text start found}, start.In text → rule.freshMatch start = some found →
    ∃ more, found.start.Takes (chars ++ more) found.stop

theorem opens_of_context {lead body : Pattern} {chars : List Char} (behind : rule.lookbehind = true)
    (opening : rule.opening = .seq (.group 1 lead) body) (advances : rule.opening.advances = true)
    (bare : body.hasGroup = false)
    (spelled : ∀ reach, ∀ later ∈ body.outcomes reach,
      ∃ more, reach.place.Takes (chars ++ more) later.place) : rule.Opens chars := by
  intro text start found inside isMatch
  obtain ⟨_, ⟨_, toStart⟩, _⟩ := freshMatch_bounds inside isMatch
  obtain ⟨mid, _, later, inBody, isStart, isStop⟩ :=
    exists_context inside behind opening advances bare isMatch
  obtain ⟨more, toLater⟩ := spelled _ later (List.mem_of_head? inBody)
  have startInside := toStart.inside inside
  rw [isStart] at startInside
  obtain ⟨others, toStop⟩ : ∃ taken, later.place.Takes taken (rule.freshStop later) :=
    takes_freshStop (toLater.inside startInside)
  refine ⟨more ++ others, ?_⟩
  rw [isStart, isStop, ← List.append_assoc]
  exact toLater.trans toStop

/-- In a text that begins otherwise, no token of the rule is at the start. -/
theorem Opens.start_pos {chars token : List Char} (opens : rule.Opens chars)
    (differs : ¬chars <+: token) (reported : rule.report token (.first token) = some found) :
    0 < found.start.offset := by
  have inside := Place.first_in token
  obtain ⟨offers, _⟩ := (report_eq_some_iff inside).1 reported
  obtain ⟨_, ⟨_, toStart⟩, _⟩ := freshMatch_bounds offers.inside offers.isMatch
  apply Nat.pos_of_ne_zero
  intro atStart
  have isFirst := (toStart.inside offers.inside).eq_of_offset inside atStart
  obtain ⟨more, takes⟩ := opens offers.inside offers.isMatch
  rw [isFirst] at takes
  apply differs
  exact ⟨more ++ found.stop.rest, by rw [← List.append_assoc]; exact takes.split.symm⟩

end RuleOf

/-- A mark stands on one side of the place. -/
def Place.IsMarked (marks : CharSet) (place : Place) : Prop :=
  (∃ c ∈ place.rest.head?, marks.Has c) ∨ ∃ c ∈ place.before, marks.Has c

/-- A single character, or several without marks, have no marked place inside. -/
theorem Place.Takes.le_of_isMarked {marks : CharSet} {text taken : List Char}
    {start stop place : Place} (takes : start.Takes taken stop) (inside : start.In text)
    (placeInside : place.In text) (plain : taken.length ≤ 1 ∨ ∀ c ∈ taken, ¬marks.Has c)
    (marked : place.IsMarked marks) (further : start.offset < place.offset) :
    stop.offset ≤ place.offset := by
  refine Nat.le_of_not_lt fun before => ?_
  obtain ⟨first, second, rfl, toPlace, toStop⟩ :=
    takes.exists_split inside placeInside (Nat.le_of_lt further) (Nat.le_of_lt before)
  -- The place lies between two characters of the token, so neither part is empty.
  have firstTaken := toPlace.ne_nil further
  have secondTaken := toStop.ne_nil before
  rcases plain with short | clear
  · have firstLength := List.length_pos_iff.2 firstTaken
    have secondLength := List.length_pos_iff.2 secondTaken
    rw [List.length_append] at short
    omega
  · rw [List.forall_mem_append] at clear
    rcases marked with ⟨c, isHead, isMark⟩ | ⟨c, isLast, isMark⟩
    · obtain ⟨d, others, rfl⟩ := List.exists_cons_of_ne_nil secondTaken
      rw [toStop.split] at isHead
      cases isHead
      exact clear.2 c List.mem_cons_self isMark
    · rw [toPlace.before, List.getLast?_eq_some_getLast firstTaken] at isLast
      cases isLast
      exact clear.1 _ (List.getLast_mem firstTaken) isMark

end Highlighter
