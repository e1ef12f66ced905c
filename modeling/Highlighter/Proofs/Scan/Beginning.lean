import Highlighter.Proofs.Pattern.Runs
import Highlighter.Proofs.Scan.Gaps
import Highlighter.Proofs.Scan.Token
import Highlighter.Proofs.Scan.WellFormed

/-!
Where spans begin. If a rule has a match at some place, and never passes it over for one that begins behind
it, then a span begins at this place, unless a span goes on over it (`Entry.exists_span_at`). A rule without
leading context passes nothing over. Nor does one whose context goes on, behind its first character, with
characters that no token of the rule begins with (`RuleOf.Leads.inOrder_of_trails`). Where a span begins no other
one goes on (`RuleTable.eq_of_covers_start`).
-/

set_option autoImplicit false

namespace Highlighter

/-- The span has characters on both sides of this offset. -/
def Span.Surrounds (span : Span) (offset : Nat) : Prop := span.start < offset ∧ offset < span.stop

namespace RuleOf

variable {Inner : Type} {rule : RuleOf Inner} {text : List Char} {place : Place} {found : Match}

/-- Wherever the scan is, if it has not gone past the place, the rule reports a match that begins there or
before. -/
def Reaches (rule : RuleOf Inner) (text : List Char) (place : Place) : Prop :=
  ∀ cursor : Place, cursor.In text → cursor.offset ≤ place.offset →
    ∃ found, rule.report text cursor = some found ∧ found.start.offset ≤ place.offset

/-- Of two matches, the one that is found first does not begin behind the other. -/
def InOrder (rule : RuleOf Inner) : Prop :=
  ∀ {text : List Char} {first second : Match}, first.context.In text → second.context.In text →
    rule.freshMatch first.context = some first → rule.freshMatch second.context = some second →
      first.context.offset ≤ second.context.offset → first.start.offset ≤ second.start.offset

theorem InOrder.reaches (inOrder : rule.InOrder) (inside : found.context.In text)
    (isMatch : rule.freshMatch found.context = some found)
    (token : found.start.offset < found.stop.offset) : rule.Reaches text found.start := by
  intro cursor cursorInside ahead
  have offers : rule.Offers text cursor found := by
    refine ⟨inside, isMatch, ?_⟩
    simp only [Probe.useful, Bool.and_eq_true, decide_eq_true_eq]
    exact ⟨ahead, token⟩
  cases reported : rule.report text cursor with
  | none => exact absurd offers ((report_eq_none_iff cursorInside).1 reported found)
  | some first =>
    obtain ⟨firstOffers, earliest⟩ := (report_eq_some_iff cursorInside).1 reported
    exact ⟨first, rfl, inOrder firstOffers.inside inside firstOffers.isMatch isMatch
      (earliest found offers)⟩

theorem inOrder_of_direct (direct : rule.lookbehind = false) : rule.InOrder := by
  intro text first second _ _ isFirst isSecond order
  rw [start_eq_of_direct direct isFirst, start_eq_of_direct direct isSecond]
  exact order

theorem reaches_of_direct {later : Reach} (direct : rule.lookbehind = false)
    (advances : rule.opening.advances = true) (solid : rule.opening.isSolid = true) (inside : place.In text)
    (known : later ∈ rule.opening.outcomes { place := place }) : rule.Reaches text place := by
  obtain ⟨first, others, outcomes⟩ := List.exists_cons_of_ne_nil (List.ne_nil_of_mem known)
  have isFirst : first ∈ rule.opening.outcomes { place := place } := by
    rw [outcomes]
    exact List.mem_cons_self
  have isMatch : rule.freshMatch place = some ⟨place, place, rule.freshStop first⟩ := by
    unfold freshMatch
    rw [Pattern.matchAt_eq_head? advances inside, outcomes, List.head?_cons, Option.map_some]
    simp only [tokenStart, direct, Bool.false_eq_true, if_false]
  obtain ⟨_, toFirst, _⟩ := Pattern.outcomes_carried (Pattern.carries_takes fun _ => True)
    rule.opening.within_any isFirst
  obtain ⟨_, toStop⟩ : ∃ taken, first.place.Takes taken (rule.freshStop first) :=
    takes_freshStop (toFirst.inside inside)
  have token : place.offset < (rule.freshStop first).offset :=
    Nat.lt_of_lt_of_le (Pattern.offset_lt_of_isSolid solid isFirst) toStop.le
  exact @InOrder.reaches _ _ _ ⟨place, place, rule.freshStop first⟩ (inOrder_of_direct direct) inside
    isMatch token

/-- The pattern of the rule is leading context and then that of the token, which takes something. -/
structure Leads (rule : RuleOf Inner) (lead body : Pattern) : Prop where
  behind : rule.lookbehind = true
  opening : rule.opening = .seq (.group 1 lead) body
  advances : rule.opening.advances = true
  bare : body.hasGroup = false
  solid : body.isSolid = true

theorem Leads.exists_context {lead body : Pattern} {cursor : Place} (leads : rule.Leads lead body)
    (inside : cursor.In text) (isMatch : rule.freshMatch cursor = some found) :
    ∃ mid ∈ lead.outcomes { place := cursor }, ∃ later,
      (body.outcomes { mid with context := some mid.place }).head? = some later ∧
        found.start = mid.place ∧ found.stop = rule.freshStop later :=
  RuleOf.exists_context inside leads.behind leads.opening leads.advances leads.bare isMatch

/-- A token begins where the context of the preferred match ends. -/
theorem Leads.reaches {lead body : Pattern} {cursor : Place} {later : Reach}
    (leads : rule.Leads lead body) (inOrder : rule.InOrder) (inside : cursor.In text)
    (isFirst : (rule.opening.outcomes { place := cursor }).head? = some later)
    (isContext : later.context = some place) : rule.Reaches text place := by
  have isMatch : rule.freshMatch cursor = some ⟨cursor, place, rule.freshStop later⟩ := by
    unfold freshMatch
    rw [Pattern.matchAt_eq_head? leads.advances inside, isFirst, Option.map_some]
    simp only [tokenStart, leads.behind, if_true, isContext, Option.getD_some]
  suffices token : place.offset < (rule.freshStop later).offset from
    @InOrder.reaches _ _ _ ⟨cursor, place, rule.freshStop later⟩ inOrder inside isMatch token
  rw [leads.opening] at isFirst
  obtain ⟨mid, inLead, isMid, inBody⟩ := Pattern.exists_of_head?_context leads.bare isFirst
  rw [isContext] at isMid
  cases isMid
  have inBody := List.mem_of_head? inBody
  obtain ⟨_, toMid, _⟩ := Pattern.outcomes_carried (Pattern.carries_takes fun _ => True)
    lead.within_any inLead
  obtain ⟨_, toLater, _⟩ := Pattern.outcomes_carried (Pattern.carries_takes fun _ => True)
    body.within_any inBody
  obtain ⟨_, toStop⟩ : ∃ taken, later.place.Takes taken (rule.freshStop later) :=
    takes_freshStop (toLater.inside (toMid.inside inside))
  have taken := Pattern.offset_lt_of_isSolid leads.solid inBody
  exact Nat.lt_of_lt_of_le taken toStop.le

theorem Leads.reaches_of_first {lead body : Pattern} {cursor : Place} {mid later : Reach}
    (leads : rule.Leads lead body) (inOrder : rule.InOrder) (inside : cursor.In text)
    (isLead : (lead.outcomes { place := cursor }).head? = some mid)
    (isBody : (body.outcomes { mid with context := some mid.place }).head? = some later) :
    rule.Reaches text mid.place := by
  have isContext : later.context = some mid.place :=
    Pattern.outcomes_carried Pattern.carries_same_context (Pattern.within_of_no_group leads.bare)
      (List.mem_of_head? isBody)
  refine leads.reaches inOrder inside ?_ isContext
  rw [leads.opening]
  exact Pattern.head?_context isLead isBody

/-- So it begins there if the context could end nowhere else. -/
theorem Leads.reaches_of_sole {lead body : Pattern} {cursor : Place} {mid later : Reach}
    (leads : rule.Leads lead body) (inOrder : rule.InOrder) (inside : cursor.In text)
    (inLead : mid ∈ lead.outcomes { place := cursor })
    (inBody : later ∈ body.outcomes { mid with context := some mid.place })
    (sole : ∀ other ∈ lead.outcomes { place := cursor }, ∀ later,
      later ∈ body.outcomes { other with context := some other.place } → other.place = place) :
    rule.Reaches text place := by
  have known : later ∈ rule.opening.outcomes { place := cursor } := by
    rw [leads.opening]
    exact List.mem_flatMap.2 ⟨_, List.mem_map.2 ⟨mid, inLead, rfl⟩, inBody⟩
  obtain ⟨first, others, outcomes⟩ := List.exists_cons_of_ne_nil (List.ne_nil_of_mem known)
  have isFirst : (rule.opening.outcomes { place := cursor }).head? = some first := by
    rw [outcomes, List.head?_cons]
  have split := isFirst
  rw [leads.opening] at split
  obtain ⟨other, inLead, isContext, inBody⟩ := Pattern.exists_of_head?_context leads.bare split
  rw [sole other inLead first (List.mem_of_head? inBody)] at isContext
  exact leads.reaches inOrder inside isFirst isContext

/-- Nothing is passed over if no token of the rule begins inside a context that begins before its own. -/
theorem Leads.inOrder_of_outside {lead body : Pattern} (leads : rule.Leads lead body)
    (outside : ∀ {text : List Char} {cursor : Place} {mid : Reach} {found : Match}, cursor.In text →
      mid ∈ lead.outcomes { place := cursor } → found.context.In text →
        rule.freshMatch found.context = some found → cursor.offset < found.context.offset →
          mid.place.offset ≤ found.start.offset) : rule.InOrder := by
  intro text first second inside secondInside isFirst isSecond order
  obtain ⟨mid, inLead, _, _, isStart, _⟩ := leads.exists_context inside isFirst
  rcases Nat.lt_or_eq_of_le order with earlier | same
  · rw [isStart]
    exact outside inside inLead secondInside isSecond earlier
  · have context := inside.eq_of_offset secondInside same
    rw [← context, isFirst] at isSecond
    cases isSecond
    exact Nat.le_refl _

theorem Leads.inOrder_of_trails {lead body : Pattern} (leads : rule.Leads lead body)
    (trailing opening : CharSet) (trails : lead.trails trailing = true)
    (starts : body.startsIn opening = true) (apart : opening.apart trailing = true) : rule.InOrder := by
  refine leads.inOrder_of_outside fun {text cursor mid found} inside inLead foundInside isMatch earlier => ?_
  obtain ⟨e, isHead, isOpen⟩ := exists_head_of_context foundInside leads.behind leads.opening
    leads.advances leads.bare starts isMatch
  obtain ⟨taken, takes, inTrail⟩ := Pattern.trails_outcomes trails inLead
  obtain ⟨_, ⟨_, toStart⟩, _⟩ := freshMatch_bounds foundInside isMatch
  have further := Nat.lt_of_lt_of_le earlier toStart.le
  refine Nat.le_of_not_lt fun before => ?_
  -- The token would begin among the trailing characters of the context.
  obtain ⟨read, more, rfl, toToken, toMid⟩ :=
    takes.exists_split inside (toStart.inside foundInside) (Nat.le_of_lt further) (Nat.le_of_lt before)
  obtain ⟨c, read, rfl⟩ := List.exists_cons_of_ne_nil (toToken.ne_nil further)
  obtain ⟨d, more, rfl⟩ := List.exists_cons_of_ne_nil (toMid.ne_nil before)
  rw [toMid.split] at isHead
  cases isHead
  exact CharSet.not_has_of_has apart isOpen (inTrail _ (by simp))

end RuleOf

namespace Entry

variable {text : List Char} {cursor place : Place} {kept others : List Entry} {entry : Entry}

/-- The span is that of a rule tried no later than those of `kept`, if no greedy rule comes behind them. -/
theorem exists_span_at (base : Nat) {count : Nat} (inside : cursor.In text)
    (enough : cursor.rest.length ≤ count) (tame : ∀ other ∈ others, other.rule.greedy = false)
    (known : entry ∈ kept) (placeInside : place.In text) (reaches : entry.rule.Reaches text place)
    (ahead : cursor.offset ≤ place.offset)
    (clear : ∀ span ∈ spans base text (kept ++ others) count cursor, ¬span.Surrounds (base + place.offset)) :
    ∃ best ∈ kept, ∃ reached found, best.rule.Offers text reached found ∧ found.start = place ∧
      spanOf base best found ∈ spans base text (kept ++ others) count cursor := by
  have isEntry : entry ∈ kept ++ others := List.mem_append_left others known
  induction count generalizing cursor with
  | zero =>
    obtain ⟨_, reported, _⟩ := reaches cursor inside ahead
    obtain ⟨_, _, won, _⟩ := exists_winner_of_report isEntry reported
    exact absurd (length_rest_lt_of_winner inside won) (by omega)
  | succ count ih =>
    obtain ⟨_, reported, before⟩ := reaches cursor inside ahead
    obtain ⟨best, chosen, won, order⟩ := exists_winner_of_report isEntry reported
    obtain ⟨startInside, stopInside, _⟩ := winner_bounds inside won
    have isSpan : spanOf base best chosen ∈ spans base text (kept ++ others) (count + 1) cursor := by
      simp only [spans, won, List.mem_cons_self]
    rcases Nat.lt_or_eq_of_le (Nat.le_trans order before) with earlier | here
    · -- The span chosen first ends before the place, so the scan goes on from its end.
      have passed : chosen.stop.offset ≤ place.offset := by
        refine Nat.le_of_not_lt fun covered => clear _ isSpan ?_
        simp only [Span.Surrounds, spanOf]
        omega
      have shorter := length_rest_lt_of_winner inside won
      have isLater (span : Span) (known : span ∈ spans base text (kept ++ others) count chosen.stop) :
          span ∈ spans base text (kept ++ others) (count + 1) cursor := by
        simp only [spans, won]
        exact List.mem_cons_of_mem _ known
      obtain ⟨other, isKept, later, found, offers, start, inSpans⟩ :=
        ih stopInside (by omega) passed fun span known => clear span (isLater span known)
      exact ⟨other, isKept, later, found, offers, start, isLater _ inSpans⟩
    · have offers := ((RuleOf.report_eq_some_iff inside).1 (report_of_winner won).2).1
      have isKept := mem_of_winner_append tame won known reported (here ▸ before)
      exact ⟨best, isKept, cursor, chosen, offers, startInside.eq_of_offset placeInside here, isSpan⟩

end Entry

namespace RuleTable

variable {table : RuleTable} {text : List Char} {span other : Span}

theorem covers_start (known : span ∈ table.classify text) : span.Covers span.start := by
  have placed := Span.isPlaced_of_mem (table.check_classify text) span known
  exact ⟨Nat.le_refl _, placed.nonempty⟩

/-- Where a span begins there is no other. -/
theorem eq_of_covers_start (known : span ∈ table.classify text) (otherKnown : other ∈ table.classify text)
    (covers : other.Covers span.start) : other = span := by
  obtain ⟨_, nonempty⟩ := covers_start known
  obtain ⟨start, stop⟩ := covers
  rcases Span.eq_or_apart (table.check_classify text) otherKnown known with same | before | behind
  · exact same
  · omega
  · omega

theorem eq_of_start_eq (known : span ∈ table.classify text) (otherKnown : other ∈ table.classify text)
    (same : other.start = span.start) : other = span := by
  have covers := covers_start otherKnown
  rw [same] at covers
  exact eq_of_covers_start known otherKnown covers

theorem not_surrounds_start (known : span ∈ table.classify text) :
    ∀ other ∈ table.classify text, ¬other.Surrounds span.start := by
  intro other otherKnown surrounds
  obtain rfl := eq_of_covers_start known otherKnown ⟨Nat.le_of_lt surrounds.1, surrounds.2⟩
  exact Nat.lt_irrefl _ surrounds.1

end RuleTable

end Highlighter
