import Highlighter.Proofs.Scan.Refinement

/-!
Leaving rules out. The rules tried last may be left out without a change to the spans of the others, if
they are not greedy and no token of theirs has the start of a token of the others inside it
(`Entry.filter_spans`). The two scans need not be at one cursor on the way: it is enough that the rules
that stay report the same at both.
-/

set_option autoImplicit false

namespace Highlighter

namespace RuleOf

variable {Inner : Type} {rule : RuleOf Inner} {text : List Char} {cursor later : Place} {found : Match}

theorem Offers.of_later (offers : rule.Offers text later found) (order : cursor.offset ≤ later.offset) :
    rule.Offers text cursor found :=
  ⟨offers.inside, offers.isMatch, Probe.useful_mono order offers.useful⟩

theorem Offers.at_later (offers : rule.Offers text cursor found)
    (ahead : later.offset ≤ found.start.offset) : rule.Offers text later found := by
  refine ⟨offers.inside, offers.isMatch, ?_⟩
  have useful := offers.useful
  simp only [Probe.useful, Bool.and_eq_true, decide_eq_true_eq] at useful ⊢
  exact ⟨ahead, useful.2⟩

theorem report_later (inside : cursor.In text) (laterInside : later.In text)
    (order : cursor.offset ≤ later.offset)
    (ahead : ∀ found ∈ rule.report text cursor, later.offset ≤ found.start.offset) :
    rule.report text later = rule.report text cursor := by
  match reported : rule.report text cursor with
  | none =>
    exact (report_eq_none_iff laterInside).2 fun found offers =>
      (report_eq_none_iff inside).1 reported found (offers.of_later order)
  | some found =>
    obtain ⟨offers, earliest⟩ := (report_eq_some_iff inside).1 reported
    exact (report_eq_some_iff laterInside).2 ⟨offers.at_later (ahead found reported),
      fun other otherOffers => earliest other (otherOffers.of_later order)⟩

end RuleOf

namespace Entry

variable {text : List Char} {cursor other : Place} {kept others : List Entry}

theorem start_stronger_le (held next : Entry × Match) :
    (stronger held next).2.start.offset ≤ held.2.start.offset ∧
      (stronger held next).2.start.offset ≤ next.2.start.offset := by
  unfold stronger
  split
  · next wins => exact ⟨by rcases wins with before | ⟨same, _⟩ <;> omega, Nat.le_refl _⟩
  · next loses => exact ⟨Nat.le_refl _, Nat.le_of_not_lt fun before => loses (.inl before)⟩

theorem start_le_of_foldl_hold {held : Option (Entry × Match)} {list : List (Entry × Match)}
    {best next : Entry × Match} (isBest : list.foldl hold held = some best)
    (known : held = some next ∨ next ∈ list) : best.2.start.offset ≤ next.2.start.offset := by
  induction list generalizing held next with
  | nil =>
    rcases known with isHeld | known
    · have same : best = next := Option.some.inj (isBest.symm.trans isHeld)
      exact Nat.le_of_eq (congrArg (·.2.start.offset) same)
    · exact absurd known List.not_mem_nil
  | cons other list ih =>
    match held with
    | none =>
      rcases known with isHeld | known
      · exact absurd isHeld.symm (Option.some_ne_none next)
      · rcases List.mem_cons.1 known with same | later
        · exact ih isBest (.inl (congrArg some same.symm))
        · exact ih isBest (.inr later)
    | some first =>
      have chosen := ih isBest (.inl rfl)
      obtain ⟨beforeFirst, beforeOther⟩ := start_stronger_le first other
      rcases known with isHeld | known
      · rw [← Option.some.inj isHeld]
        exact Nat.le_trans chosen beforeFirst
      · rcases List.mem_cons.1 known with same | later
        · rw [same]
          exact Nat.le_trans chosen beforeOther
        · exact ih isBest (.inr later)

theorem eq_nil_of_foldl_hold {list : List (Entry × Match)} (nothing : list.foldl hold none = none) :
    list = [] := by
  induction list with
  | nil => rfl
  | cons next list ih =>
    have some (held : Entry × Match) (list : List (Entry × Match)) :
        (list.foldl hold (.some held)).isSome := by
      induction list generalizing held with
      | nil => rfl
      | cons next list ih => exact ih (stronger held next)
    have isSome := some next list
    rw [show list.foldl hold (.some next) = none from nothing] at isSome
    cases isSome

/-- Matches of rules that are not greedy replace one held before only if they begin before it. -/
theorem foldl_hold_of_not_greedy {list : List (Entry × Match)} (held : Entry × Match)
    (tame : ∀ next ∈ list, next.1.rule.greedy = false) :
    list.foldl hold (some held) = some held ∨
      ∃ best ∈ list, list.foldl hold (some held) = some best ∧
        best.2.start.offset < held.2.start.offset := by
  induction list generalizing held with
  | nil => exact .inl rfl
  | cons next list ih =>
    obtain ⟨nextTame, tame⟩ := List.forall_mem_cons.1 tame
    rw [List.foldl_cons]
    by_cases before : next.2.start.offset < held.2.start.offset
    · have replaced : hold (some held) next = some next := by simp [hold, stronger, before]
      rw [replaced]
      rcases ih next tame with stays | ⟨best, known, isBest, earlier⟩
      · exact .inr ⟨next, List.mem_cons_self, stays, before⟩
      · exact .inr ⟨best, List.mem_cons_of_mem next known, isBest, Nat.lt_trans earlier before⟩
    · have stays : hold (some held) next = some held := by
        simp [hold, stronger, before, nextTame]
      rw [stays]
      rcases ih held tame with same | ⟨best, known, isBest, earlier⟩
      · exact .inl same
      · exact .inr ⟨best, List.mem_cons_of_mem next known, isBest, earlier⟩

theorem mem_reports {entry : Entry} {found : Match} :
    (entry, found) ∈ reports text cursor kept ↔
      entry ∈ kept ∧ entry.rule.report text cursor = some found := by
  unfold reports
  rw [List.mem_filterMap]
  constructor
  · rintro ⟨other, known, reported⟩
    obtain ⟨same, isReport, isPair⟩ := Option.map_eq_some_iff.1 reported
    cases isPair
    exact ⟨known, isReport⟩
  · rintro ⟨known, reported⟩
    exact ⟨entry, known, by rw [reported]; rfl⟩

theorem reports_append : reports text cursor (kept ++ others) =
    reports text cursor kept ++ reports text cursor others := List.filterMap_append

theorem winner_congr
    (agree : ∀ entry ∈ kept, entry.rule.report text cursor = entry.rule.report text other) :
    winner text cursor kept = winner text other kept := by
  have same : reports text cursor kept = reports text other kept := by
    induction kept with
    | nil => rfl
    | cons entry kept ih =>
      obtain ⟨first, agree⟩ := List.forall_mem_cons.1 agree
      rw [reports_cons, reports_cons, first, ih agree]
  rw [winner, winner, same]

/-- With further rules behind them, either the winner of the first rules still wins, or one of the
further rules does, and begins before all that the first report. -/
theorem winner_append (tame : ∀ entry ∈ others, entry.rule.greedy = false) :
    winner text cursor (kept ++ others) = winner text cursor kept ∨
      ∃ entry ∈ others, ∃ found, winner text cursor (kept ++ others) = some (entry, found) ∧
        ∀ first ∈ kept, ∀ later ∈ first.rule.report text cursor,
          found.start.offset < later.start.offset := by
  unfold winner
  rw [reports_append, List.foldl_append]
  have tameReports (next : Entry × Match) (known : next ∈ reports text cursor others) :
      next.1.rule.greedy = false := tame next.1 (mem_reports.1 known).1
  match first : (reports text cursor kept).foldl hold none with
  | some held =>
    rcases foldl_hold_of_not_greedy held tameReports with stays | ⟨best, known, isBest, earlier⟩
    · exact .inl stays
    · refine .inr ⟨best.1, (mem_reports.1 known).1, best.2, isBest, fun entry isKept found reported => ?_⟩
      have known : (entry, found) ∈ reports text cursor kept := mem_reports.2 ⟨isKept, reported⟩
      exact Nat.lt_of_lt_of_le earlier (start_le_of_foldl_hold first (.inr known))
  | none =>
    match second : (reports text cursor others).foldl hold none with
    | none => exact .inl rfl
    | some best =>
      refine .inr ⟨best.1, ?_, best.2, rfl, fun entry isKept found reported => ?_⟩
      · rcases mem_of_foldl_hold second with start | known
        · exact absurd start.symm (Option.some_ne_none best)
        · exact (mem_reports.1 known).1
      · have known := mem_reports.2 ⟨isKept, reported⟩
        rw [eq_nil_of_foldl_hold first] at known
        cases known

/-- The further rules have the winner only if it begins before all that the first rules report. -/
theorem mem_of_winner_append (tame : ∀ entry ∈ others, entry.rule.greedy = false) {best entry : Entry}
    {found reported : Match} (won : winner text cursor (kept ++ others) = some (best, found))
    (known : entry ∈ kept) (isReport : entry.rule.report text cursor = some reported)
    (order : reported.start.offset ≤ found.start.offset) : best ∈ kept := by
  rcases winner_append tame with same | ⟨_, _, _, otherWon, before⟩
  · exact (report_of_winner (same.symm.trans won)).1
  · cases otherWon.symm.trans won
    exact absurd order (Nat.not_le_of_lt (before entry known reported isReport))

/-- No token of the other rules has the start of a kept one's token inside it. -/
structure Apart (kept others : List Entry) : Prop where
  tame : ∀ entry ∈ others, entry.rule.greedy = false
  outside : ∀ entry ∈ kept, ∀ swallower ∈ others, ∀ {text cursor found token},
    entry.rule.Offers text cursor found → swallower.rule.Offers text cursor token →
      token.start.offset < found.start.offset → token.stop.offset ≤ found.start.offset

theorem spans_of_none {base : Nat} (nothing : winner text cursor kept = none) (count : Nat) :
    spans base text kept count cursor = [] := by
  cases count with
  | zero => rfl
  | succ count => simp only [spans, nothing]

/-- The spans that are kept are the spans of the kept rules alone. -/
theorem filter_spans {base : Nat} {shared : Category → Bool} (apart : Apart kept others)
    (stays : ∀ entry ∈ kept, shared entry.rule.category = true)
    (goes : ∀ entry ∈ others, shared entry.rule.category = false)
    (inside : cursor.In text) (otherInside : other.In text)
    (agree : ∀ entry ∈ kept, entry.rule.report text cursor = entry.rule.report text other)
    {count fewer : Nat} (enough : cursor.rest.length ≤ count) (enoughOther : other.rest.length ≤ fewer) :
    (spans base text (kept ++ others) count cursor).filter (shared ·.category) =
      spans base text kept fewer other := by
  induction count generalizing cursor other fewer with
  | zero =>
    -- The two scans report the same for the kept rules, wherever their cursors are.
    have same : winner text cursor kept = winner text other kept := winner_congr agree
    match won : winner text cursor kept with
    | none => exact (spans_of_none (same.symm.trans won) fewer).symm
    | some (entry, found) =>
      exact absurd (length_rest_lt_of_winner inside won) (by omega)
  | succ count ih =>
    have same : winner text cursor kept = winner text other kept := winner_congr agree
    rcases winner_append apart.tame with chosen | ⟨entry, known, token, won, later⟩
    · match won : winner text cursor kept with
      | none =>
        rw [spans_of_none (chosen.trans won), spans_of_none (same.symm.trans won), List.filter_nil]
      | some (entry, found) =>
        have shorter := length_rest_lt_of_winner inside won
        have shorterOther := length_rest_lt_of_winner otherInside (same.symm.trans won)
        obtain ⟨_, stopInside, _⟩ := winner_bounds inside won
        obtain ⟨fewer, rfl⟩ : ∃ less, fewer = less + 1 := ⟨fewer - 1, by omega⟩
        have rest := ih stopInside stopInside (fun _ _ => rfl) (by omega)
          (show found.stop.rest.length ≤ fewer by omega)
        simp only [spans, chosen.trans won, same.symm.trans won]
        rw [List.filter_cons_of_pos (by exact stays entry (report_of_winner won).1), rest]
    -- Another rule's token: it is filtered out, and the kept rules report the same behind it.
    · have shorter := length_rest_lt_of_winner inside won
      obtain ⟨startInside, stopInside, order, nonempty⟩ := winner_bounds inside won
      have tokenOffers := ((RuleOf.report_eq_some_iff inside).1 (report_of_winner won).2).1
      have agreeLater (first : Entry) (isKept : first ∈ kept) :
          first.rule.report text token.stop = first.rule.report text other := by
        rw [← agree first isKept]
        refine RuleOf.report_later inside stopInside (by omega) fun found reported => ?_
        have offers := ((RuleOf.report_eq_some_iff inside).1 reported).1
        exact apart.outside first isKept entry known offers tokenOffers
          (later first isKept found reported)
      simp only [spans, won]
      rw [List.filter_cons_of_neg (by simp [spanOf, goes entry known])]
      exact ih stopInside otherInside agreeLater (by omega) enoughOther

end Entry

end Highlighter
