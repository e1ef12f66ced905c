import Highlighter.Proofs.Pattern.Taken
import Highlighter.Scan

/-!
Scanning without memory. Each step asks every rule anew, by going through the places where a match may
begin; nothing is kept from step to step but the cursor.
-/

set_option autoImplicit false

namespace Highlighter

namespace Pattern

/-- The first place from this one on where a match begins, each place asked by itself. -/
def firstMatch (pattern : Pattern) (place : Place) : Option (Place × Reach) :=
  place.onward.findSome? fun start => (pattern.matchAt start).map (start, ·)

theorem search_eq_firstMatch {pattern : Pattern} {text : List Char} {place : Place}
    (inside : place.In text) : pattern.search place = pattern.firstMatch place := by
  unfold firstMatch
  have first : pattern.IsFirst text place (pattern.search place) := isFirst_search inside
  match found : pattern.search place with
  | none =>
    rw [found] at first
    refine ((Place.findSome?_onward_eq_none inside).2 fun start startInside order => ?_).symm
    rw [first start startInside order]
    rfl
  | some (start, reach) =>
    rw [found] at first
    obtain ⟨startInside, order, here, earliest⟩ := first
    refine ((Place.findSome?_onward_eq_some inside).2
      ⟨start, startInside, order, by rw [here]; rfl, fun earlier earlierInside onward before => ?_⟩).symm
    rw [earliest earlier earlierInside onward before]
    rfl

section

variable {pattern : Pattern} {text : List Char} {place later : Place} {found : Place × Reach}

/-- What a search finds lies in the text, from the place on where the search began. -/
theorem bounds_of_search {start : Place} {reach : Reach} (inside : place.In text)
    (isFirst : pattern.search place = some (start, reach)) :
    start.In text ∧ place.offset ≤ start.offset ∧ pattern.matchAt start = some reach ∧
      reach.place.In text := by
  have first : pattern.IsFirst text place (pattern.search place) := isFirst_search inside
  rw [isFirst] at first
  obtain ⟨startInside, order, isMatch, _⟩ := first
  obtain ⟨taken, takes⟩ := (matchAt_bounds isMatch).1
  exact ⟨startInside, order, isMatch, takes.inside startInside⟩

theorem firstMatch_eq_none_iff (inside : place.In text) :
    pattern.firstMatch place = none ↔
      ∀ start : Place, start.In text → place.offset ≤ start.offset → pattern.matchAt start = none := by
  simp only [firstMatch, Place.findSome?_onward_eq_none inside, Option.map_eq_none_iff]

theorem firstMatch_eq_some_iff (inside : place.In text) :
    pattern.firstMatch place = some found ↔
      found.1.In text ∧ place.offset ≤ found.1.offset ∧ pattern.matchAt found.1 = some found.2 ∧
        ∀ earlier : Place, earlier.In text → place.offset ≤ earlier.offset →
          earlier.offset < found.1.offset → pattern.matchAt earlier = none := by
  rw [firstMatch, Place.findSome?_onward_eq_some inside]
  simp only [Option.map_eq_none_iff, Option.map_eq_some_iff]
  constructor
  · rintro ⟨start, startInside, order, ⟨reach, isMatch, rfl⟩, earliest⟩
    exact ⟨startInside, order, isMatch, earliest⟩
  · rintro ⟨startInside, order, isMatch, earliest⟩
    exact ⟨found.1, startInside, order, ⟨found.2, isMatch, rfl⟩, earliest⟩

theorem firstMatch_of_earlier (inside : place.In text) (laterInside : later.In text)
    (order : place.offset ≤ later.offset) (isFirst : pattern.firstMatch place = some found)
    (ahead : later.offset ≤ found.1.offset) : pattern.firstMatch later = some found := by
  obtain ⟨startInside, _, isMatch, earliest⟩ := (firstMatch_eq_some_iff inside).1 isFirst
  exact (firstMatch_eq_some_iff laterInside).2 ⟨startInside, ahead, isMatch,
    fun earlier earlierInside onward => earliest earlier earlierInside (Nat.le_trans order onward)⟩

theorem firstMatch_eq_none_of_earlier (inside : place.In text) (laterInside : later.In text)
    (order : place.offset ≤ later.offset) (nothing : pattern.firstMatch place = none) :
    pattern.firstMatch later = none :=
  (firstMatch_eq_none_iff laterInside).2 fun start startInside onward =>
    (firstMatch_eq_none_iff inside).1 nothing start startInside (Nat.le_trans order onward)

end

end Pattern

namespace RuleOf

variable {Inner : Type}

/-- Where a token ends whose opening has come to `reach`: for a delimited rule, at the end of the first
closing match from there on, or at the end of the text. -/
def freshStop (rule : RuleOf Inner) (reach : Reach) : Place :=
  match rule.closing with
  | none => reach.place
  | some (_, closing) =>
    match closing.firstMatch reach.place with
    | none => reach.place.last
    | some (_, later) => later.place

def freshMatch (rule : RuleOf Inner) (start : Place) : Option Match :=
  (rule.opening.matchAt start).map fun reach =>
    ⟨start, rule.tokenStart start reach, rule.freshStop reach⟩

def firstStart (rule : RuleOf Inner) (text : List Char) (cursor : Place) : Place :=
  if rule.lookbehind then .first text else cursor

/-- The first match whose token is not empty and does not begin before the cursor. -/
def report (rule : RuleOf Inner) (text : List Char) (cursor : Place) : Option Match :=
  (rule.firstStart text cursor).onward.findSome? fun start =>
    (rule.freshMatch start).filter (Probe.useful cursor)

end RuleOf

/-- A rule with the classifier for the inside of its matches. -/
structure Entry where
  rule : Rule
  inside : Nat → List Char → List Span

namespace Entry

/-- The earlier token wins; where two begin together, the one held before, unless it is not of a greedy
rule and the other one is, and is longer. -/
def stronger (held next : Entry × Match) : Entry × Match :=
  if next.2.start.offset < held.2.start.offset ∨
      (next.2.start.offset = held.2.start.offset ∧ next.1.rule.greedy = true ∧
        held.1.rule.greedy = false ∧ held.2.stop.offset < next.2.stop.offset) then next
  else held

def hold (held : Option (Entry × Match)) (next : Entry × Match) : Option (Entry × Match) :=
  match held with
  | none => some next
  | some held => some (stronger held next)

def reports (text : List Char) (cursor : Place) (entries : List Entry) : List (Entry × Match) :=
  entries.filterMap fun entry => (entry.rule.report text cursor).map (entry, ·)

/-- Of the matches that the rules report, the one that is chosen in the end. -/
def winner (text : List Char) (cursor : Place) (entries : List Entry) : Option (Entry × Match) :=
  (reports text cursor entries).foldl hold none

def spanOf (base : Nat) (entry : Entry) (found : Match) : Span where
  category := entry.rule.category
  start := base + found.start.offset
  stop := base + found.stop.offset
  children := entry.inside (base + found.start.offset) (found.start.upTo found.stop)

/-- The spans from the cursor on, at most `count` of them. -/
def spans (base : Nat) (text : List Char) (entries : List Entry) : Nat → Place → List Span
  | 0, _ => []
  | count + 1, cursor =>
    match winner text cursor entries with
    | none => []
    | some (entry, found) => spanOf base entry found :: spans base text entries count found.stop

end Entry

namespace RuleTable

mutual

/-- The spans of a text that begins at byte `base` of a larger one. There are no more of them than
characters. -/
def freshAt : RuleTable → Nat → List Char → List Span
  | .ofRules rules, base, text =>
    Entry.spans base text (freshEntries rules) text.length (.first text)

def freshEntries : List Rule → List Entry
  | [] => []
  | ⟨category, source, opening, closing, lookbehind, greedy, ignoreCase, nested⟩ :: rules =>
    ⟨⟨category, source, opening, closing, lookbehind, greedy, ignoreCase, nested⟩,
      freshInside nested⟩ :: freshEntries rules

def freshInside : Option RuleTable → Nat → List Char → List Span
  | none, _, _ => []
  | some table, base, text => table.freshAt base text

end

theorem freshEntries_eq_map (rules : List Rule) :
    freshEntries rules = rules.map fun rule => ⟨rule, freshInside rule.nested⟩ := by
  induction rules with
  | nil => rfl
  | cons rule rules ih =>
    obtain ⟨category, source, opening, closing, lookbehind, greedy, ignoreCase, nested⟩ := rule
    exact congrArg (_ :: ·) ih

theorem freshEntries_append (rules others : List Rule) :
    freshEntries (rules ++ others) = freshEntries rules ++ freshEntries others := by
  simp only [freshEntries_eq_map, List.map_append]

theorem mem_freshEntries {rules : List Rule} {entry : Entry} :
    entry ∈ freshEntries rules ↔ ∃ rule ∈ rules, ⟨rule, freshInside rule.nested⟩ = entry := by
  rw [freshEntries_eq_map, List.mem_map]

theorem rule_of_mem_freshEntries {rules : List Rule} {entry : Entry}
    (known : entry ∈ freshEntries rules) : entry.rule ∈ rules := by
  obtain ⟨rule, isRule, rfl⟩ := mem_freshEntries.1 known
  exact isRule

end RuleTable

namespace RuleOf

variable {Inner : Type} {rule : RuleOf Inner} {text : List Char} {start cursor : Place}
  {found : Match}

theorem takes_freshStop {reach : Reach} (inside : reach.place.In text) :
    ∃ taken, reach.place.Takes taken (rule.freshStop reach) := by
  unfold freshStop
  split
  · exact ⟨[], .refl _⟩
  · next closing _ =>
    split
    · exact ⟨_, reach.place.takes_last⟩
    · next start later first =>
      obtain ⟨startInside, order, isMatch, _⟩ := (Pattern.firstMatch_eq_some_iff inside).1 first
      obtain ⟨between, toStart⟩ := inside.takes startInside order
      obtain ⟨taken, toEnd⟩ := (Pattern.matchAt_bounds isMatch).1
      exact ⟨_, toStart.trans toEnd⟩

theorem freshMatch_bounds (inside : start.In text) (isMatch : rule.freshMatch start = some found) :
    found.context = start ∧ (∃ taken, start.Takes taken found.start) ∧
      ∃ taken, found.start.Takes taken found.stop := by
  obtain ⟨reach, isReach, rfl⟩ := Option.map_eq_some_iff.1 isMatch
  obtain ⟨⟨whole, toReach⟩, context⟩ := Pattern.matchAt_bounds isReach
  obtain ⟨more, toStop⟩ : ∃ more, reach.place.Takes more (rule.freshStop reach) :=
    takes_freshStop (toReach.inside inside)
  refine ⟨rfl, ?_⟩
  unfold tokenStart
  split
  · match isContext : reach.context with
    | none => exact ⟨⟨[], .refl _⟩, _, toReach.trans toStop⟩
    | some place =>
      obtain ⟨toContext, _, behind⟩ := context place isContext
      exact ⟨toContext, _, behind.trans toStop⟩
  · exact ⟨⟨[], .refl _⟩, _, toReach.trans toStop⟩

theorem start_in_of_freshMatch (inside : start.In text) (isMatch : rule.freshMatch start = some found) :
    found.start.In text := by
  obtain ⟨_, ⟨_, toStart⟩, _⟩ := freshMatch_bounds inside isMatch
  exact toStart.inside inside

structure Offers (rule : RuleOf Inner) (text : List Char) (cursor : Place) (found : Match) : Prop where
  inside : found.context.In text
  isMatch : rule.freshMatch found.context = some found
  useful : Probe.useful cursor found = true

theorem Offers.matchAt_ne_none (offers : rule.Offers text cursor found) :
    rule.opening.matchAt found.context ≠ none := by
  obtain ⟨reach, isReach, _⟩ := Option.map_eq_some_iff.1 offers.isMatch
  rw [isReach]
  exact Option.some_ne_none reach

theorem Offers.firstStart_le (offers : rule.Offers text cursor found) :
    (rule.firstStart text cursor).offset ≤ found.context.offset := by
  unfold firstStart
  split
  · exact Nat.zero_le _
  · next direct =>
    obtain ⟨reach, _, same⟩ := Option.map_eq_some_iff.1 offers.isMatch
    have start : found.start = found.context := by
      rw [← same]
      simp [tokenStart, direct]
    have useful := offers.useful
    simp only [Probe.useful, Bool.and_eq_true, decide_eq_true_eq] at useful
    rw [← start]
    exact useful.1

theorem firstStart_in (inside : cursor.In text) : (rule.firstStart text cursor).In text := by
  unfold firstStart
  split
  · exact Place.first_in text
  · exact inside

theorem report_eq_none_iff (inside : cursor.In text) :
    rule.report text cursor = none ↔ ∀ found, ¬rule.Offers text cursor found := by
  rw [report, Place.findSome?_onward_eq_none (firstStart_in inside)]
  constructor
  · intro nothing found offers
    have here := nothing found.context offers.inside offers.firstStart_le
    rw [offers.isMatch] at here
    simp [offers.useful] at here
  · intro nothing start startInside _
    match isMatch : rule.freshMatch start with
    | none => rfl
    | some found =>
      have context := (freshMatch_bounds startInside isMatch).1
      subst context
      refine Option.filter_eq_none_iff.2 fun other same isUseful => ?_
      cases same
      exact nothing found ⟨startInside, isMatch, isUseful⟩

theorem report_eq_some_iff (inside : cursor.In text) :
    rule.report text cursor = some found ↔ rule.Offers text cursor found ∧
      ∀ other, rule.Offers text cursor other → found.context.offset ≤ other.context.offset := by
  rw [report, Place.findSome?_onward_eq_some (firstStart_in inside)]
  constructor
  · rintro ⟨start, startInside, order, here, earliest⟩
    obtain ⟨isMatch, isUseful⟩ := Option.filter_eq_some_iff.1 here
    have context := (freshMatch_bounds startInside isMatch).1
    subst context
    -- The places are visited in order, so an earlier offer would have been found first.
    refine ⟨⟨startInside, isMatch, isUseful⟩, fun other offers => Nat.le_of_not_lt fun before => ?_⟩
    have there := earliest other.context offers.inside offers.firstStart_le before
    rw [offers.isMatch] at there
    simp [offers.useful] at there
  · rintro ⟨offers, earliest⟩
    refine ⟨found.context, offers.inside, offers.firstStart_le, ?_, ?_⟩
    · rw [offers.isMatch]
      simp [offers.useful]
    · intro start startInside _ before
      match isMatch : rule.freshMatch start with
      | none => rfl
      | some other =>
        have context := (freshMatch_bounds startInside isMatch).1
        subst context
        refine Option.filter_eq_none_iff.2 fun same isSame isUseful => ?_
        cases isSame
        exact absurd (earliest other ⟨startInside, isMatch, isUseful⟩) (Nat.not_le_of_lt before)

end RuleOf

namespace Entry

variable {text : List Char} {cursor : Place} {entries : List Entry} {entry : Entry} {found : Match}

theorem reports_cons (entry : Entry) (entries : List Entry) :
    reports text cursor (entry :: entries) =
      ((entry.rule.report text cursor).map (entry, ·)).toList ++ reports text cursor entries := by
  unfold reports
  rw [List.filterMap_cons]
  cases entry.rule.report text cursor <;> rfl

theorem mem_of_foldl_hold {held : Option (Entry × Match)} {list : List (Entry × Match)}
    {best : Entry × Match} (isBest : list.foldl hold held = some best) :
    held = some best ∨ best ∈ list := by
  induction list generalizing held with
  | nil => exact .inl isBest
  | cons next list ih =>
    rcases ih isBest with now | later
    · match held with
      | none =>
        cases now
        exact .inr List.mem_cons_self
      | some other =>
        simp only [hold, stronger] at now
        split at now
        · cases now
          exact .inr List.mem_cons_self
        · exact .inl now
    · exact .inr (List.mem_cons_of_mem next later)

theorem report_of_winner (won : winner text cursor entries = some (entry, found)) :
    entry ∈ entries ∧ entry.rule.report text cursor = some found := by
  rcases mem_of_foldl_hold won with start | known
  · cases start
  · obtain ⟨other, isEntry, reported⟩ := List.mem_filterMap.1 known
    obtain ⟨same, isReport, isPair⟩ := Option.map_eq_some_iff.1 reported
    cases isPair
    exact ⟨isEntry, isReport⟩

/-- The winner takes characters, none of them before the cursor. -/
theorem winner_bounds (inside : cursor.In text) (won : winner text cursor entries = some (entry, found)) :
    found.start.In text ∧ found.stop.In text ∧ cursor.offset ≤ found.start.offset ∧
      found.start.offset < found.stop.offset := by
  obtain ⟨_, reported⟩ := report_of_winner won
  obtain ⟨⟨contextInside, isMatch, isUseful⟩, _⟩ := (RuleOf.report_eq_some_iff inside).1 reported
  obtain ⟨_, ⟨before, toStart⟩, token, toStop⟩ := RuleOf.freshMatch_bounds contextInside isMatch
  have startInside := toStart.inside contextInside
  simp only [Probe.useful, Bool.and_eq_true, decide_eq_true_eq] at isUseful
  exact ⟨startInside, toStop.inside startInside, isUseful⟩

theorem length_rest_lt_of_winner (inside : cursor.In text)
    (won : winner text cursor entries = some (entry, found)) :
    found.stop.rest.length < cursor.rest.length := by
  obtain ⟨_, stopInside, order, nonempty⟩ := winner_bounds inside won
  exact inside.length_rest_lt stopInside (Nat.lt_of_le_of_lt order nonempty)

end Entry

end Highlighter
