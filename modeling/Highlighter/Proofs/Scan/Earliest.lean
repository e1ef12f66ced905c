import Highlighter.Proofs.Scan.Refinement

/-!
Which match of a rule is its first. A rule reports the match that begins first, context included
(`RuleOf.report_eq_some_iff`), and so do its probe when fresh and the one that a scan has kept
(`Scan.Reached.next_eq`). Where contexts differ in length a match that begins later may have the earlier token;
it then lies inside the context of the match reported (`RuleOf.Offers.in_context`).
-/

set_option autoImplicit false

namespace Highlighter

variable {text : List Char} {cursor : Place}

namespace Probe

variable {Inner : Type}

theorem next_start (rule : RuleOf Inner) (inside : cursor.In text) :
    ((start text).next rule cursor).1 = rule.report text cursor := by
  have sound : (start text).Sound rule text (.first text) := sound_start
  exact ((sound.dropPassed (Nat.zero_le _)).next inside).1

end Probe

namespace RuleOf

variable {Inner : Type} {rule : RuleOf Inner} {found other : Match}

theorem Offers.context_le_start (offers : rule.Offers text cursor found) :
    found.context.offset ≤ found.start.offset := by
  obtain ⟨_, ⟨_, toStart⟩, _⟩ := freshMatch_bounds offers.inside offers.isMatch
  rw [toStart.offset]
  exact Nat.le_add_right _ _

/-- Matches are told apart by where they begin. -/
theorem Offers.eq_of_context (offers : rule.Offers text cursor found) (others : rule.Offers text cursor other)
    (same : found.context.offset = other.context.offset) : found = other := by
  have sameContext := offers.inside.eq_of_offset others.inside same
  have isMatch := offers.isMatch
  rw [sameContext, others.isMatch] at isMatch
  exact (Option.some.inj isMatch).symm

/-- A match with an earlier token than the one reported begins and stays in the context of that one. -/
theorem Offers.in_context (inside : cursor.In text) (reported : rule.report text cursor = some found)
    (others : rule.Offers text cursor other) (earlier : other.start.offset < found.start.offset) :
    found.context.offset < other.context.offset ∧ other.context.offset ≤ other.start.offset := by
  obtain ⟨offers, leftmost⟩ := (report_eq_some_iff inside).1 reported
  refine ⟨Nat.lt_of_le_of_ne (leftmost other others) fun same => ?_, others.context_le_start⟩
  rw [offers.eq_of_context others same] at earlier
  exact Nat.lt_irrefl _ earlier

end RuleOf

namespace Scan

/-- The scans of a text: a new one, and one that has given a span more. -/
inductive Reached (table : RuleTable) (text : List Char) : Scan → Prop
  | start : Reached table text (table.scan text)
  | next {scan : Scan} {span : Span} (reached : Reached table text scan)
      (gives : scan.next.1 = some span) : Reached table text scan.next.2

variable {table : RuleTable} {scan : Scan}

theorem Reached.tracks (reached : Reached table text scan) :
    scan.Tracks text (RuleTable.freshEntries table.rules) := by
  induction reached with
  | start => exact RuleTable.tracks_scan table text
  | @next scan span _ gives ih =>
    cases won : Entry.winner text scan.cursor (RuleTable.freshEntries table.rules) with
    | none =>
      rw [(ih.next_of_none won).1] at gives
      cases gives
    | some best => exact (ih.next_of_some won).2.1

/-- What a probe has kept makes no difference to its answer. -/
theorem Reached.next_eq (reached : Reached table text scan) {lane : Lane} (known : lane ∈ scan.lanes) :
    (lane.probe.next lane.rule scan.cursor).1 = ((Probe.start text).next lane.rule scan.cursor).1 := by
  have tracks := reached.tracks
  rw [Probe.next_start lane.rule tracks.inside]
  exact ((tracks.lanes lane known).next tracks.inside).1

end Scan

/-- A fresh probe reports the match that begins first of all that are of use, or nothing if there are none. A
match that it passes over for one with a later token begins in the context of that one; and in a scan each
rule's probe answers as a fresh one. -/
theorem Probe.next_start_leftmost :
    (∀ (rule : Rule) (text : List Char) (cursor : Place), cursor.In text →
      (((start text).next rule cursor).1 = none ↔ ∀ found, ¬rule.Offers text cursor found) ∧
      (∀ found, ((start text).next rule cursor).1 = some found ↔ rule.Offers text cursor found ∧
        ∀ other, rule.Offers text cursor other → found.context.offset ≤ other.context.offset) ∧
      ∀ found other, ((start text).next rule cursor).1 = some found → rule.Offers text cursor other →
        other.start.offset < found.start.offset →
          found.context.offset < other.context.offset ∧ other.context.offset ≤ other.start.offset) ∧
    ∀ (table : RuleTable) (text : List Char) (scan : Scan), Scan.Reached table text scan →
      ∀ lane ∈ scan.lanes,
        (lane.probe.next lane.rule scan.cursor).1 = ((start text).next lane.rule scan.cursor).1 := by
  constructor
  · intro rule text cursor inside
    simp only [next_start rule inside]
    exact ⟨RuleOf.report_eq_none_iff inside, fun found => RuleOf.report_eq_some_iff inside,
      fun found other reported others earlier => others.in_context inside reported earlier⟩
  · intro table text scan reached lane known
    exact reached.next_eq known

/-- A rule whose contexts differ in length. -/
def Rule.uneven : Rule where
  category := .keyword
  source := "(abc|b)[a-z]"
  opening := .seq (.group 1 (.alt (.literal ['a', 'b', 'c']) (.literal ['b']))) (.set { ranges := [(97, 122)] })
  closing := none
  lookbehind := true
  greedy := false
  ignoreCase := false
  nested := none

/-- The match of the shorter context in `abcd`. -/
theorem Rule.offers_uneven : Rule.uneven.Offers ['a', 'b', 'c', 'd'] (.first ['a', 'b', 'c', 'd'])
    ⟨⟨1, 'a', ['b', 'c', 'd']⟩, ⟨2, 'b', ['c', 'd']⟩, ⟨3, 'c', ['d']⟩⟩ :=
  ⟨⟨['a'], rfl, rfl, rfl⟩, rfl, rfl⟩

/-- There the match of the longer context, with the token `d`, hides the one with the token `c`. -/
theorem Probe.next_start_uneven :
    RuleSpec.compile { pattern := "(abc|b)[a-z]", lookbehind := true } .keyword = .ok Rule.uneven ∧
      (∃ found other,
        ((start ['a', 'b', 'c', 'd']).next Rule.uneven (.first ['a', 'b', 'c', 'd'])).1 = some found ∧
        Rule.uneven.Offers ['a', 'b', 'c', 'd'] (.first ['a', 'b', 'c', 'd']) other ∧
        other.start.offset < found.start.offset) ∧
      (RuleTable.ofRules [Rule.uneven]).classify ['a', 'b', 'c', 'd'] = [⟨.keyword, 3, 4, []⟩] :=
  ⟨rfl, ⟨⟨.first ['a', 'b', 'c', 'd'], ⟨3, 'c', ['d']⟩, ⟨4, 'd', []⟩⟩, _, rfl, Rule.offers_uneven, by decide⟩,
    rfl⟩

theorem Probe.next_start_leftmost_abcd :
    (Place.first ['a', 'b', 'c', 'd']).In ['a', 'b', 'c', 'd'] ∧
      ((start ['a', 'b', 'c', 'd']).next Rule.uneven (.first ['a', 'b', 'c', 'd'])).1 =
        some ⟨.first ['a', 'b', 'c', 'd'], ⟨3, 'c', ['d']⟩, ⟨4, 'd', []⟩⟩ ∧
      (0 < 1 ∧ 1 ≤ 2) ∧
      Scan.Reached (.ofRules [Rule.uneven]) ['a', 'b', 'c', 'd']
        ((RuleTable.ofRules [Rule.uneven]).scan ['a', 'b', 'c', 'd']) ∧
      ∀ lane ∈ ((RuleTable.ofRules [Rule.uneven]).scan ['a', 'b', 'c', 'd']).lanes,
        (lane.probe.next lane.rule (.first ['a', 'b', 'c', 'd'])).1 =
          ((start ['a', 'b', 'c', 'd']).next lane.rule (.first ['a', 'b', 'c', 'd'])).1 := by
  have inside : (Place.first ['a', 'b', 'c', 'd']).In ['a', 'b', 'c', 'd'] := Place.first_in _
  have behind := (next_start_leftmost.1 Rule.uneven _ _ inside).2.2
    ⟨.first ['a', 'b', 'c', 'd'], ⟨3, 'c', ['d']⟩, ⟨4, 'd', []⟩⟩ _ rfl Rule.offers_uneven (by decide)
  exact ⟨inside, rfl, behind, .start, next_start_leftmost.2 _ _ _ .start⟩

end Highlighter
