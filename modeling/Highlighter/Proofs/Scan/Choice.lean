import Highlighter.Proofs.Scan.Earliest
import Highlighter.Proofs.Scan.Erasure

/-!
Which of the matches reported is chosen. Of the matches that begin first, that of the first rule has the lead; if
its rule is not greedy it loses the lead, once, to the first match behind it that begins with it, is longer and is
of a greedy rule (`Entry.Wins`). Matches that begin later make no difference, wherever they are met. One comparison
keeps this (`Entry.Wins.step`), so it holds of what is chosen in the end (`Scan.choose_wins`).
-/

set_option autoImplicit false

namespace Highlighter

namespace Entry

variable {reported before passed after others : List (Entry × Match)} {first next best last : Entry × Match}

/-- The match is of a greedy rule, and it begins with the other one and is longer. -/
def Overtakes (next first : Entry × Match) : Prop :=
  next.1.rule.greedy = true ∧ next.2.start.offset = first.2.start.offset ∧
    first.2.stop.offset < next.2.stop.offset

/-- No match begins before this one, and those of the rules before it begin later. -/
structure HasLead (before : List (Entry × Match)) (first : Entry × Match) (after : List (Entry × Match)) :
    Prop where
  before : ∀ other ∈ before, first.2.start.offset < other.2.start.offset
  after : ∀ other ∈ after, first.2.start.offset ≤ other.2.start.offset

/-- The match to choose of those reported, which are in the order of the rules. -/
inductive Wins (reported : List (Entry × Match)) : Entry × Match → Prop where
  | keeps {before after : List (Entry × Match)} {first : Entry × Match}
      (split : reported = before ++ first :: after) (lead : HasLead before first after)
      (kept : first.1.rule.greedy = true ∨ ∀ other ∈ after, ¬Overtakes other first) : Wins reported first
  | overtakes {before passed after : List (Entry × Match)} {first next : Entry × Match}
      (split : reported = before ++ first :: (passed ++ next :: after))
      (lead : HasLead before first (passed ++ next :: after)) (tame : first.1.rule.greedy = false)
      (slower : ∀ other ∈ passed, ¬Overtakes other first) (overtaken : Overtakes next first) : Wins reported next

theorem HasLead.le (lead : HasLead before first after) :
    ∀ other ∈ before ++ first :: after, first.2.start.offset ≤ other.2.start.offset := by
  intro other known
  rcases List.mem_append.1 known with early | late
  · exact Nat.le_of_lt (lead.before other early)
  · rcases List.mem_cons.1 late with rfl | late
    · exact Nat.le_refl _
    · exact lead.after other late

theorem HasLead.append (lead : HasLead before first after) (order : first.2.start.offset ≤ next.2.start.offset) :
    HasLead before first (after ++ [next]) where
  before := lead.before
  after := List.forall_mem_append.2 ⟨lead.after, List.forall_mem_singleton.2 order⟩

theorem Wins.le (wins : Wins reported best) :
    ∀ other ∈ reported, best.2.start.offset ≤ other.2.start.offset := by
  cases wins with
  | keeps split lead => exact split ▸ lead.le
  | overtakes split lead _ _ overtaken => exact overtaken.2.1 ▸ split ▸ lead.le

/-- A match more is compared with the one chosen so far. -/
theorem Wins.step (wins : Wins reported best) (next : Entry × Match) :
    Wins (reported ++ [next]) (stronger best next) := by
  unfold stronger
  split
  · next takes =>
    rcases takes with earlier | ⟨same, greedy, tame, longer⟩
    · -- None of those before begins as early, so they do not count any more.
      refine .keeps rfl ⟨fun other known => ?_, List.forall_mem_nil _⟩ (.inr (List.forall_mem_nil _))
      exact Nat.lt_of_lt_of_le earlier (wins.le other known)
    · cases wins with
      | @keeps before after _ split lead kept =>
        have none : ∀ other ∈ after, ¬Overtakes other best := kept.resolve_left (by simp [tame])
        refine .overtakes ?_ (lead.append (Nat.le_of_eq same.symm)) tame none ⟨greedy, same, longer⟩
        rw [split, List.append_assoc, List.cons_append]
      | overtakes _ _ _ _ overtaken =>
        -- The lead has been lost once, to a greedy rule.
        simp [overtaken.1] at tame
  · next stays =>
    obtain ⟨order, shorter⟩ := not_or.1 stays
    have order := Nat.le_of_not_lt order
    cases wins with
    | @keeps before after _ split lead kept =>
      refine .keeps (by rw [split, List.append_assoc, List.cons_append]) (lead.append order) ?_
      cases tame : best.1.rule.greedy with
      | true => exact .inl rfl
      | false =>
        have none := kept.resolve_left (by simp [tame])
        refine .inr (List.forall_mem_append.2 ⟨none, List.forall_mem_singleton.2 ?_⟩)
        exact fun ⟨greedy, same, longer⟩ => shorter ⟨same, greedy, tame, longer⟩
    | @overtakes before passed after first _ split lead tame slower overtaken =>
      have split : reported ++ [next] = before ++ first :: (passed ++ best :: (after ++ [next])) := by
        simp [split]
      have lead := lead.append (overtaken.2.1 ▸ order)
      rw [List.append_assoc, List.cons_append] at lead
      exact .overtakes split lead tame slower overtaken

theorem Wins.foldl (wins : Wins reported best) (isLast : others.foldl hold (some best) = some last) :
    Wins (reported ++ others) last := by
  induction others generalizing reported best with
  | nil =>
    cases isLast
    rwa [List.append_nil]
  | cons next others ih =>
    rw [← List.singleton_append, ← List.append_assoc]
    exact ih (wins.step next) isLast

theorem wins_of_foldl_hold (isBest : reported.foldl hold none = some best) : Wins reported best := by
  cases reported with
  | nil => cases isBest
  | cons first others =>
    have alone : Wins [first] first :=
      .keeps (List.nil_append _).symm ⟨List.forall_mem_nil _, List.forall_mem_nil _⟩
        (.inr (List.forall_mem_nil _))
    exact alone.foldl isBest

theorem foldl_hold_of_weaker (weaker : ∀ next ∈ others, stronger first next = first) :
    others.foldl hold (some first) = some first := by
  induction others with
  | nil => rfl
  | cons next others ih =>
    obtain ⟨loses, weaker⟩ := List.forall_mem_cons.1 weaker
    rw [List.foldl_cons, hold, loses]
    exact ih weaker

theorem stronger_of_not_overtakes (order : first.2.start.offset ≤ next.2.start.offset)
    (slower : first.1.rule.greedy = true ∨ ¬Overtakes next first) : stronger first next = first := by
  refine if_neg (not_or.2 ⟨Nat.not_lt_of_le order, ?_⟩)
  rintro ⟨same, greedy, tame, longer⟩
  rcases slower with isGreedy | slower
  · simp [isGreedy] at tame
  · exact slower ⟨greedy, same, longer⟩

/-- Whatever was held before, the match with the lead takes its place. -/
theorem HasLead.foldl (lead : HasLead before first after) :
    (before ++ first :: after).foldl hold none = after.foldl hold (some first) := by
  rw [List.foldl_append, List.foldl_cons]
  match held : before.foldl hold none with
  | none => rfl
  | some other =>
    have known : other ∈ before := (mem_of_foldl_hold held).resolve_left nofun
    rw [hold, stronger, if_pos (.inl (lead.before other known))]

theorem Wins.foldl_hold (wins : Wins reported best) : reported.foldl hold none = some best := by
  cases wins with
  | @keeps before after _ split lead kept =>
    rw [split, lead.foldl]
    refine foldl_hold_of_weaker fun next known => stronger_of_not_overtakes (lead.after next known) ?_
    exact kept.imp_right (· next known)
  | @overtakes before passed after first _ split lead tame slower overtaken =>
    obtain ⟨early, late⟩ := List.forall_mem_append.1 lead.after
    obtain ⟨_, late⟩ := List.forall_mem_cons.1 late
    have weaker : passed.foldl hold (some first) = some first :=
      foldl_hold_of_weaker fun next known =>
        stronger_of_not_overtakes (early next known) (.inr (slower next known))
    have takes : stronger first best = best :=
      if_pos (.inr ⟨overtaken.2.1, overtaken.1, tame, overtaken.2.2⟩)
    rw [split, lead.foldl, List.foldl_append, weaker, List.foldl_cons, hold, takes]
    refine foldl_hold_of_weaker fun next known => stronger_of_not_overtakes ?_ (.inl overtaken.1)
    exact overtaken.2.1 ▸ late next known

theorem foldl_hold_eq_some_iff : reported.foldl hold none = some best ↔ Wins reported best :=
  ⟨wins_of_foldl_hold, Wins.foldl_hold⟩

end Entry

namespace Scan

variable {cursor : Place}

/-- What the rules report, in their order; those that report nothing are left out. -/
def answers (cursor : Place) (lanes : List Lane) : List (Entry × Match) :=
  lanes.filterMap fun lane => (lane.probe.next lane.rule cursor).1.map (lane.entry, ·)

theorem answers_cons (lane : Lane) (lanes : List Lane) : answers cursor (lane :: lanes) =
    ((lane.probe.next lane.rule cursor).1.map (lane.entry, ·)).toList ++ answers cursor lanes := by
  unfold answers
  rw [List.filterMap_cons]
  cases (lane.probe.next lane.rule cursor).1 <;> rfl

theorem choose_eq_foldl (lanes : List Lane) (held : Option (Lane × Match)) :
    (choose cursor held lanes).1.map asEntry =
      (answers cursor lanes).foldl Entry.hold (held.map asEntry) := by
  induction lanes generalizing held with
  | nil => rfl
  | cons lane lanes ih =>
    rw [answers_cons, List.foldl_append, choose_cons]
    match lane.probe.next lane.rule cursor with
    | (found, probe) =>
      have same := asEntry_better held { lane with probe } found
      exact (ih _).trans (congrArg (List.foldl Entry.hold · (answers cursor lanes)) same)

theorem choose_eq_none_iff (lanes : List Lane) : (choose cursor none lanes).1 = none ↔
    ∀ lane ∈ lanes, (lane.probe.next lane.rule cursor).1 = none := by
  rw [← Option.map_eq_none_iff (f := asEntry), choose_eq_foldl, Option.map_none]
  constructor
  · intro nothing lane known
    have empty := List.filterMap_eq_nil_iff.1 (Entry.eq_nil_of_foldl_hold nothing) lane known
    exact Option.map_eq_none_iff.1 empty
  · intro nothing
    have empty : answers cursor lanes = [] := List.filterMap_eq_nil_iff.2 fun lane known => by
      rw [nothing lane known, Option.map_none]
    rw [empty, List.foldl_nil]

theorem Reached.rules_eq {table : RuleTable} {text : List Char} {scan : Scan} (reached : Reached table text scan) :
    scan.lanes.map (·.rule) = table.rules := by
  have rules := congrArg (List.map (·.rule)) reached.tracks.entries
  rw [List.map_map, RuleTable.freshEntries_eq_map, List.map_map] at rules
  exact rules.trans (List.map_id _)

/-- Whatever the rules report, nothing is chosen only if all of them report nothing, and otherwise the match that
wins. In the scans of a text the rules are asked in the order of the table. -/
theorem choose_wins :
    (∀ (cursor : Place) (lanes : List Lane),
      ((choose cursor none lanes).1 = none ↔ ∀ lane ∈ lanes, (lane.probe.next lane.rule cursor).1 = none) ∧
      ∀ best, (choose cursor none lanes).1.map asEntry = some best ↔ Entry.Wins (answers cursor lanes) best) ∧
    ∀ (table : RuleTable) (text : List Char) (scan : Scan), Reached table text scan →
      scan.lanes.map (·.rule) = table.rules := by
  constructor
  · intro cursor lanes
    refine ⟨choose_eq_none_iff lanes, fun best => ?_⟩
    rw [choose_eq_foldl, Option.map_none]
    exact Entry.foldl_hold_eq_some_iff
  · intro table text scan reached
    exact reached.rules_eq

/-- A rule for so many slashes. -/
def slashes (count : Nat) (greedy : Bool) : Rule where
  category := .operator
  source := String.ofList (List.replicate count '/')
  opening := .literal (List.replicate count '/')
  closing := none
  lookbehind := false
  greedy := greedy
  ignoreCase := false
  nested := none

/-- Of one, two and three slashes, the last two greedy, the first rule loses the lead to the second, and the
third does not get it. -/
theorem choose_wins_slashes :
    ∃ scan best, Reached (.ofRules [slashes 1 false, slashes 2 true, slashes 3 true]) ['/', '/', '/'] scan ∧
      scan.lanes.map (·.rule) = [slashes 1 false, slashes 2 true, slashes 3 true] ∧
      (choose scan.cursor none scan.lanes).1.map asEntry = some best ∧
      Entry.Wins (answers scan.cursor scan.lanes) best ∧
      best.1.rule = slashes 2 true ∧ best.2.stop.offset = 2 := by
  let table : RuleTable := .ofRules [slashes 1 false, slashes 2 true, slashes 3 true]
  have reached : Reached table ['/', '/', '/'] (table.scan ['/', '/', '/']) := .start
  have rules := choose_wins.2 table _ _ reached
  obtain ⟨best, chosen, isRule, stop⟩ :
      ∃ best, (choose (.first ['/', '/', '/']) none (table.scan ['/', '/', '/']).lanes).1.map asEntry = some best ∧
        best.1.rule = slashes 2 true ∧ best.2.stop.offset = 2 := ⟨_, rfl, rfl, rfl⟩
  exact ⟨_, best, reached, rules, chosen, ((choose_wins.1 _ _).2 best).1 chosen, isRule, stop⟩

end Scan

end Highlighter
