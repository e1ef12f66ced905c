import Highlighter.Proofs.Scan.Erasure

/-!
What is left plain. A token of a rule without context that lies at or behind the cursor is covered by
one of the spans that follow: the scan chooses a match that begins no later, and that covers the start
of the token or ends before it (`Entry.exists_span_of_token`). So no such token begins outside the spans
of a text, and this includes what lies behind the last of them.
-/

set_option autoImplicit false

namespace Highlighter

/-- The place of this offset lies in the span, and not at its end. -/
def Span.Covers (span : Span) (offset : Nat) : Prop := span.start ≤ offset ∧ offset < span.stop

namespace RuleOf

variable {Inner : Type} {rule : RuleOf Inner} {text : List Char} {cursor place : Place} {found : Match}

theorem start_eq_of_direct (direct : rule.lookbehind = false)
    (isMatch : rule.freshMatch place = some found) : found.start = place := by
  obtain ⟨reach, _, rfl⟩ := Option.map_eq_some_iff.1 isMatch
  simp [tokenStart, direct]

/-- Without context, a rule reports nothing that begins behind a token of its own. -/
theorem exists_report_of_token (direct : rule.lookbehind = false) (inside : cursor.In text)
    (placeInside : place.In text) (ahead : cursor.offset ≤ place.offset)
    (isMatch : rule.freshMatch place = some found) (token : found.start.offset < found.stop.offset) :
    ∃ reported, rule.report text cursor = some reported ∧ reported.start.offset ≤ place.offset := by
  have start := start_eq_of_direct direct isMatch
  have context := (freshMatch_bounds placeInside isMatch).1
  have offers : rule.Offers text cursor found := by
    refine ⟨context ▸ placeInside, context ▸ isMatch, ?_⟩
    simp only [Probe.useful, Bool.and_eq_true, decide_eq_true_eq]
    exact ⟨start ▸ ahead, token⟩
  cases reported : rule.report text cursor with
  | none => exact absurd offers ((report_eq_none_iff inside).1 reported found)
  | some first =>
    obtain ⟨firstOffers, earliest⟩ := (report_eq_some_iff inside).1 reported
    refine ⟨first, rfl, ?_⟩
    rw [start_eq_of_direct direct firstOffers.isMatch, ← context]
    exact earliest found offers

end RuleOf

namespace Entry

variable {text : List Char} {cursor place : Place} {entries : List Entry} {entry : Entry}
  {found : Match}

theorem exists_winner_of_report (known : entry ∈ entries)
    (reported : entry.rule.report text cursor = some found) :
    ∃ best chosen, winner text cursor entries = some (best, chosen) ∧
      chosen.start.offset ≤ found.start.offset := by
  have isReport : (entry, found) ∈ reports text cursor entries := mem_reports.2 ⟨known, reported⟩
  cases won : winner text cursor entries with
  | none =>
    rw [eq_nil_of_foldl_hold won] at isReport
    exact absurd isReport List.not_mem_nil
  | some best => exact ⟨best.1, best.2, rfl, start_le_of_foldl_hold won (.inr isReport)⟩

theorem exists_span_of_token (base : Nat) {count : Nat} (inside : cursor.In text)
    (enough : cursor.rest.length ≤ count) (known : entry ∈ entries)
    (direct : entry.rule.lookbehind = false) (placeInside : place.In text)
    (ahead : cursor.offset ≤ place.offset) (isMatch : entry.rule.freshMatch place = some found)
    (token : found.start.offset < found.stop.offset) :
    ∃ span ∈ spans base text entries count cursor, span.Covers (base + place.offset) := by
  -- The token stays ahead of the cursor until a span covers it, and while it does there is a winner.
  induction count generalizing cursor with
  | zero =>
    obtain ⟨_, reported, _⟩ :=
      RuleOf.exists_report_of_token direct inside placeInside ahead isMatch token
    obtain ⟨_, _, won, _⟩ := exists_winner_of_report known reported
    exact absurd (length_rest_lt_of_winner inside won) (by omega)
  | succ count ih =>
    obtain ⟨_, reported, before⟩ :=
      RuleOf.exists_report_of_token direct inside placeInside ahead isMatch token
    obtain ⟨best, chosen, won, order⟩ := exists_winner_of_report known reported
    simp only [spans, won]
    rcases Nat.lt_or_ge place.offset chosen.stop.offset with covered | behind
    · refine ⟨_, List.mem_cons_self, ?_⟩
      simp only [Span.Covers, spanOf]
      omega
    · have shorter := length_rest_lt_of_winner inside won
      obtain ⟨span, isSpan, covers⟩ := ih (winner_bounds inside won).2.1 (by omega) behind
      exact ⟨span, List.mem_cons_of_mem _ isSpan, covers⟩

end Entry

namespace RuleTable

/-- Where no span of the text lies, a rule without context has no token: if its pattern matches there at
all, the match takes nothing. -/
theorem stop_eq_start_of_plain (table : RuleTable) (text : List Char) {rule : Rule} {place : Place}
    (known : rule ∈ table.rules) (direct : rule.lookbehind = false) (inside : place.In text)
    (plain : ∀ span ∈ table.classify text, ¬span.Covers place.offset) :
    ∀ found ∈ rule.freshMatch place, found.stop = found.start := by
  intro found isMatch
  obtain ⟨_, ⟨_, toStart⟩, _, toStop⟩ := RuleOf.freshMatch_bounds inside isMatch
  have startInside := toStart.inside inside
  rcases Nat.lt_or_ge found.start.offset found.stop.offset with token | empty
  · have isEntry : ⟨rule, freshInside rule.nested⟩ ∈ freshEntries table.rules :=
      mem_freshEntries.2 ⟨rule, known, rfl⟩
    obtain ⟨span, isSpan, covers⟩ := Entry.exists_span_of_token 0 (Place.first_in text)
      (Nat.le_refl _) isEntry direct inside (Nat.zero_le _) isMatch token
    rw [Nat.zero_add] at covers
    rw [classify_of_rules rfl] at plain
    exact absurd covers (plain span isSpan)
  · exact (toStop.inside startInside).eq_of_offset startInside (Nat.le_antisymm empty toStop.le)

/-- A rule for any number of letters x. -/
def anyX : Rule where
  category := .keyword
  source := "x*"
  opening := .rounds 0 none true (.literal ['x'])
  closing := none
  lookbehind := false
  greedy := false
  ignoreCase := false
  nested := none

theorem stop_eq_start_of_plain_anyX :
    (ofRules [anyX]).classify ['a', 'x'] = [⟨.keyword, 1, 2, []⟩] ∧
      anyX.freshMatch (.first ['a', 'x']) ≠ none ∧
      ∀ found ∈ anyX.freshMatch (.first ['a', 'x']), found.stop = found.start := by
  have spans : (ofRules [anyX]).classify ['a', 'x'] = [⟨.keyword, 1, 2, []⟩] := rfl
  refine ⟨spans, by decide, ?_⟩
  apply stop_eq_start_of_plain (ofRules [anyX]) ['a', 'x'] List.mem_cons_self rfl (Place.first_in _)
  simp [spans, Span.Covers, Place.first]

end RuleTable

end Highlighter
