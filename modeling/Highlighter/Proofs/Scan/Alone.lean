import Highlighter.Proofs.Pattern.Cut
import Highlighter.Proofs.Scan.Erasure
import Highlighter.Proofs.Scan.Token
import Highlighter.Proofs.Scan.WellFormed

/-!
A token by itself. The text of a token is classified as this token and nothing else if its rule matches
all of it and no other rule has a token at its start (`Entry.spans_of_matchesAll`). That the rule matches
all of it comes from what its patterns have there, compared with what they have in the whole text.
-/

set_option autoImplicit false

namespace Highlighter

namespace Pattern

variable {pattern : Pattern} {text token : List Char} {start stop place inner later : Place}
  {reach : Reach}

theorem firstMatch_cut_eq_none (advances : pattern.advances = true) (bare : pattern.anchors = [])
    (inside : start.In text) (takes : start.Takes token stop) (cut : Place.Cut start stop place inner)
    (nothing : pattern.firstMatch place = none) : pattern.firstMatch inner = none := by
  have placeInside := cut.place_in inside
  rw [firstMatch_eq_none_iff placeInside] at nothing
  rw [firstMatch_eq_none_iff (cut.inside takes)]
  intro other otherInside order
  obtain ⟨whole, otherCut⟩ := Place.exists_cut takes otherInside
  have wholeInside := otherCut.place_in inside
  apply matchAt_cut_eq_none advances wholeInside otherInside
  · exact trims_outcomes advances (by simp [bare]) _ _ otherCut
  · apply nothing whole wholeInside
    rw [cut.offset_eq, otherCut.offset_eq]
    exact Nat.add_le_add_left order _

theorem firstMatch_cut (advances : pattern.advances = true) (bare : pattern.anchors = [])
    (inside : start.In text) (takes : start.Takes token reach.place)
    (cut : Place.Cut start reach.place place inner)
    (isFirst : pattern.firstMatch place = some (later, reach)) :
    ∃ found, pattern.firstMatch inner = some found ∧ found.2.place = (Place.first token).last := by
  have placeInside := cut.place_in inside
  obtain ⟨laterInside, order, isMatch, earliest⟩ := (firstMatch_eq_some_iff placeInside).1 isFirst
  obtain ⟨_, toStop⟩ := (matchAt_bounds isMatch).1
  have further : start.offset ≤ later.offset := by
    rw [cut.offset_eq] at order
    exact Nat.le_trans (Nat.le_add_right _ _) order
  obtain ⟨there, laterCut⟩ :=
    Place.exists_cut_of_between inside laterInside (takes.inside inside) further toStop.le
  have trims : Trims start reach.place pattern.outcomes := trims_outcomes advances (by simp [bare])
  obtain ⟨found, isFound, foundCut⟩ := matchAt_cut advances laterInside (laterCut.inside takes)
    (trims _ _ laterCut) isMatch (Nat.le_refl _)
  -- An earlier match in the part would be one in the whole text.
  refine ⟨(there, found), ?_, foundCut.eq_last takes⟩
  apply (firstMatch_eq_some_iff (cut.inside takes)).2
  refine ⟨laterCut.inside takes, ?_, isFound, ?_⟩
  · rw [cut.offset_eq, laterCut.offset_eq] at order
    exact Nat.le_of_add_le_add_left order
  · intro other otherInside onward before
    obtain ⟨whole, otherCut⟩ := Place.exists_cut takes otherInside
    have wholeInside := otherCut.place_in inside
    apply matchAt_cut_eq_none advances wholeInside otherInside (trims _ _ otherCut)
    apply earliest whole wholeInside
    · rw [cut.offset_eq, otherCut.offset_eq]
      exact Nat.add_le_add_left onward _
    · rw [otherCut.offset_eq, laterCut.offset_eq]
      exact Nat.add_lt_add_left before _

end Pattern

namespace RuleOf

variable {Inner : Type} {rule : RuleOf Inner} {text token : List Char} {start stop : Place}
  {found : Match} {later inner : Reach}

/-- All of the text is one token of the rule. -/
def MatchesAll (rule : RuleOf Inner) (token : List Char) : Prop :=
  rule.freshMatch (.first token) = some ⟨.first token, .first token, (Place.first token).last⟩

theorem freshStop_cut
    (closes : ∀ closing ∈ rule.closing, closing.2.advances = true ∧ closing.2.anchors = [])
    (inside : start.In text) (takes : start.Takes token stop)
    (cut : Place.Cut start stop later.place inner.place) (ends : rule.freshStop later = stop) :
    rule.freshStop inner = (Place.first token).last := by
  unfold freshStop at ends ⊢
  match isClosing : rule.closing with
  | none =>
    simp only [isClosing] at ends ⊢
    rw [ends] at cut
    exact cut.eq_last takes
  | some (source, closing) =>
    simp only [isClosing] at ends ⊢
    obtain ⟨advances, bare⟩ := closes (source, closing) isClosing
    match isFirst : closing.firstMatch later.place with
    | none =>
      rw [Pattern.firstMatch_cut_eq_none advances bare inside takes cut isFirst]
      exact (cut.inside takes).last_eq (Place.first_in token)
    | some (place, reach) =>
      simp only [isFirst] at ends
      subst ends
      obtain ⟨last, isLast, same⟩ :=
        Pattern.firstMatch_cut advances bare inside takes cut isFirst
      rw [isLast]
      exact same

theorem matchesAll_of_token (direct : rule.lookbehind = false) (noClosing : rule.closing = none)
    (advances : rule.opening.advances = true) (inside : start.In text)
    (trimmed : ∀ later token, (rule.opening.outcomes { place := start }).head? = some later →
      start.Takes token later.place → Trimmed start later.place
        (rule.opening.outcomes { place := start }) (rule.opening.outcomes { place := .first token }))
    (isMatch : rule.freshMatch start = some found) (takes : found.start.Takes token found.stop) :
    rule.MatchesAll token := by
  obtain ⟨later, isReach, rfl⟩ := Option.map_eq_some_iff.1 isMatch
  simp only [tokenStart, direct, Bool.false_eq_true, if_false, freshStop_of_no_closing noClosing]
    at takes
  have isHead := isReach
  rw [Pattern.matchAt_eq_head? advances inside] at isHead
  obtain ⟨last, isLast, cut⟩ := Pattern.matchAt_cut advances inside (Place.first_in token)
    (trimmed later token isHead takes) isReach (Nat.le_refl _)
  unfold MatchesAll freshMatch
  rw [isLast, Option.map_some, freshStop_of_no_closing noClosing, cut.eq_last takes]
  simp only [tokenStart, direct, Bool.false_eq_true, if_false]

/-- A rule with leading context matches all of its token, if nothing will do for the context there. -/
theorem matchesAll_of_context {lead body : Pattern} (behind : rule.lookbehind = true)
    (opening : rule.opening = .seq (.group 1 lead) body) (advances : rule.opening.advances = true)
    (bare : body.hasGroup = false) (bareBody : body.anchors = [])
    (closes : ∀ closing ∈ rule.closing, closing.2.advances = true ∧ closing.2.anchors = [])
    (inside : start.In text) (isMatch : rule.freshMatch start = some found)
    (takes : found.start.Takes token found.stop)
    (leads : (lead.outcomes { place := .first token }).head? = some { place := .first token }) :
    rule.MatchesAll token := by
  obtain ⟨_, ⟨_, toStart⟩, _⟩ := freshMatch_bounds inside isMatch
  have startInside := toStart.inside inside
  obtain ⟨mid, inLead, later, inBody, isStart, isStop⟩ :=
    exists_context inside behind opening advances bare isMatch
  rw [isStart] at takes startInside
  have laterInside : later.place.In text := by
    obtain ⟨_, toLater, _⟩ := Pattern.outcomes_carried (Pattern.carries_takes fun _ => True)
      body.within_any (List.mem_of_head? inBody)
    exact toLater.inside startInside
  obtain ⟨_, toStop⟩ : ∃ taken, later.place.Takes taken (rule.freshStop later) :=
    takes_freshStop laterInside
  have bodyAdvances : body.advances = true := by
    rw [opening] at advances
    exact (Bool.and_eq_true_iff.1 advances).2
  -- Behind the context the pattern goes on in the part as in the whole text.
  have trimmed : Trimmed mid.place found.stop (body.outcomes { mid with context := some mid.place })
      (body.outcomes { place := .first token, context := some (.first token) }) :=
    Pattern.trims_outcomes bodyAdvances (by simp [bareBody]) _ _ (Place.cut_first takes)
  obtain ⟨last, isLast, cut⟩ := trimmed.head? inBody (isStop ▸ toStop.le)
  have isReach : rule.opening.matchAt (.first token) = some last := by
    rw [Pattern.matchAt_eq_head? advances (Place.first_in token), opening]
    exact Pattern.head?_context leads isLast
  have isContext : last.context = some (.first token) :=
    Pattern.outcomes_carried Pattern.carries_same_context (Pattern.within_of_no_group bare)
      (List.mem_of_head? isLast)
  unfold MatchesAll freshMatch
  rw [isReach, Option.map_some, freshStop_cut closes startInside takes cut isStop.symm]
  simp only [tokenStart, behind, if_true, isContext, Option.getD_some]

end RuleOf

namespace Entry

variable {text token : List Char} {cursor : Place} {entries : List Entry} {entry : Entry}
  {found : Match}

theorem exists_of_mem_spans {base count : Nat} {span : Span} (inside : cursor.In text)
    (known : span ∈ spans base text entries count cursor) :
    ∃ entry ∈ entries, ∃ cursor found, entry.rule.Offers text cursor found ∧
      span = spanOf base entry found := by
  induction count generalizing cursor with
  | zero => cases known
  | succ count ih =>
    unfold spans at known
    cases won : winner text cursor entries with
    | none =>
      rw [won] at known
      cases known
    | some best =>
      obtain ⟨entry, found⟩ := best
      rw [won] at known
      rcases List.mem_cons.1 known with here | later
      · obtain ⟨isEntry, reported⟩ := report_of_winner won
        have offers := ((RuleOf.report_eq_some_iff inside).1 reported).1
        exact ⟨entry, isEntry, cursor, found, offers, here⟩
      · exact ih (winner_bounds inside won).2.1 later

/-- A token that begins before those of all other rules wins. -/
theorem winner_of_earliest (isEntry : entry ∈ entries)
    (reported : entry.rule.report text cursor = some found)
    (alone : ∀ other ∈ entries, ∀ later ∈ other.rule.report text cursor,
      other = entry ∨ found.start.offset < later.start.offset) :
    winner text cursor entries = some (entry, found) := by
  have known : (entry, found) ∈ reports text cursor entries := mem_reports.2 ⟨isEntry, reported⟩
  match won : winner text cursor entries with
  | none =>
    -- Without a winner nothing is reported.
    rw [eq_nil_of_foldl_hold won] at known
    cases known
  | some (best, other) =>
    have least : other.start.offset ≤ found.start.offset := start_le_of_foldl_hold won (.inr known)
    obtain ⟨isBest, reportedBest⟩ := report_of_winner won
    rcases alone best isBest other reportedBest with rfl | before
    · rw [Option.some.inj (reported.symm.trans reportedBest)]
    · exact absurd least (Nat.not_le_of_lt before)

theorem report_of_matchesAll (matchesAll : entry.rule.MatchesAll token) (nonempty : token ≠ []) :
    entry.rule.report token (.first token) =
      some ⟨.first token, .first token, (Place.first token).last⟩ := by
  apply (RuleOf.report_eq_some_iff (Place.first_in token)).2
  refine ⟨⟨Place.first_in token, matchesAll, ?_⟩, fun _ _ => Nat.zero_le _⟩
  have size : 0 < byteLength token := by
    obtain ⟨c, more, rfl⟩ := List.exists_cons_of_ne_nil nonempty
    rw [byteLength_cons]
    exact Nat.add_pos_left (Nat.pos_of_ne_zero (utf8Size_ne_zero c)) _
  simp only [Probe.useful, Bool.and_eq_true, decide_eq_true_eq]
  refine ⟨Nat.le_refl _, ?_⟩
  rw [(Place.takes_last _).offset]
  exact Nat.lt_add_of_pos_right size

/-- A token that is all of the text is the only one. -/
theorem spans_of_matchesAll (isEntry : entry ∈ entries) (matchesAll : entry.rule.MatchesAll token)
    (nonempty : token ≠ [])
    (alone : ∀ other ∈ entries, ∀ later ∈ other.rule.report token (.first token),
      other = entry ∨ 0 < later.start.offset) :
    spans 0 token entries token.length (.first token) =
      [⟨entry.rule.category, 0, byteLength token, entry.inside 0 token⟩] := by
  have inside := Place.first_in token
  have toLast := (Place.first token).takes_last
  have won := winner_of_earliest isEntry (report_of_matchesAll matchesAll nonempty) alone
  obtain ⟨count, length⟩ : ∃ count, token.length = count + 1 :=
    Nat.exists_eq_succ_of_ne_zero (mt List.length_eq_zero_iff.1 nonempty)
  -- Behind the token no character is left for another one.
  have nothing : winner token (Place.first token).last entries = none := by
    match wonLast : winner token (Place.first token).last entries with
    | none => rfl
    | some (best, other) =>
      have shorter := length_rest_lt_of_winner (toLast.inside inside) wonLast
      rw [Place.rest_last] at shorter
      exact absurd shorter (Nat.not_lt_zero _)
  have size : (Place.first token).last.offset = byteLength token := inside.offset_last
  have all : (Place.first token).upTo (Place.first token).last = token := toLast.upTo
  rw [length, spans, won]
  simp only [spans_of_none nothing, spanOf, all, size, Nat.zero_add]
  rfl

end Entry

end Highlighter
