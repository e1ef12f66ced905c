import Highlighter.Proofs.Scan.Tracking

/-!
A scan with probes gives the spans that scanning without memory gives. One call chooses the match that
wins when all rules are asked anew (`Scan.Tracks.next_of_some`), so all calls of a scan give the list of
fresh spans, and then nothing (`Scan.Tracks.iterate`); the nested tables follow by recursion
(`RuleTable.classifyAt_eq_freshAt`).
-/

set_option autoImplicit false

namespace Highlighter

namespace Lane

def entry (lane : Lane) : Entry := ⟨lane.rule, lane.inside⟩

/-- The lane may be asked at the cursor. -/
def Tracks (text : List Char) (cursor : Place) (lane : Lane) : Prop :=
  (lane.probe.dropPassed cursor).Sound lane.rule text cursor

theorem Tracks.next {text : List Char} {cursor : Place} {lane : Lane}
    (tracks : lane.Tracks text cursor) (inside : cursor.In text) :
    (lane.probe.next lane.rule cursor).1 = lane.entry.rule.report text cursor ∧
      (lane.probe.next lane.rule cursor).2.Sound lane.rule text cursor := by
  unfold Tracks at tracks
  exact tracks.next inside

end Lane

namespace Scan

variable {text : List Char} {cursor : Place} {scan : Scan} {entries : List Entry} {entry : Entry}
  {found : Match}

def asEntry (best : Lane × Match) : Entry × Match := (best.1.entry, best.2)

def better (held : Option (Lane × Match)) (lane : Lane) (reported : Option Match) :
    Option (Lane × Match) :=
  match reported, held with
  | none, held => held
  | some found, none => some (lane, found)
  | some found, some best => if preempts best lane found then some (lane, found) else some best

theorem choose_cons (held : Option (Lane × Match)) (lane : Lane) (lanes : List Lane) :
    choose cursor held (lane :: lanes) =
      let (reported, probe) := lane.probe.next lane.rule cursor
      let (best, others) := choose cursor (better held { lane with probe } reported) lanes
      (best, { lane with probe } :: others) := rfl

theorem preempts_iff (best : Lane × Match) (lane : Lane) (found : Match) :
    preempts best lane found = true ↔
      found.start.offset < best.2.start.offset ∨
        (found.start.offset = best.2.start.offset ∧ lane.rule.greedy = true ∧
          best.1.rule.greedy = false ∧ best.2.stop.offset < found.stop.offset) := by
  simp [preempts, and_assoc]

theorem asEntry_better (held : Option (Lane × Match)) (lane : Lane) (reported : Option Match) :
    (better held lane reported).map asEntry =
      (reported.map (lane.entry, ·)).toList.foldl Entry.hold (held.map asEntry) := by
  cases reported with
  | none => rfl
  | some found =>
    cases held with
    | none => rfl
    | some best =>
      simp only [better, preempts_iff, Option.map_some, Option.toList_some, List.foldl_cons,
        List.foldl_nil, Entry.hold, Entry.stronger, asEntry, Lane.entry]
      split <;> rfl

/-- Asking the lanes one by one chooses as asking their rules anew does, and the lanes stay sound. -/
theorem choose_eq {lanes : List Lane} (inside : cursor.In text)
    (tracks : ∀ lane ∈ lanes, lane.Tracks text cursor) (held : Option (Lane × Match)) :
    (choose cursor held lanes).1.map asEntry =
        (Entry.reports text cursor (lanes.map Lane.entry)).foldl Entry.hold (held.map asEntry) ∧
      (choose cursor held lanes).2.map Lane.entry = lanes.map Lane.entry ∧
      ∀ lane ∈ (choose cursor held lanes).2, lane.probe.Sound lane.rule text cursor := by
  induction lanes generalizing held with
  | nil => exact ⟨rfl, rfl, List.forall_mem_nil _⟩
  | cons lane lanes ih =>
    rw [List.forall_mem_cons] at tracks
    -- By the induction the other lanes go on from the best match so far, as the fold does.
    obtain ⟨answer, sound⟩ := tracks.1.next inside
    rw [choose_cons]
    match asked : lane.probe.next lane.rule cursor with
    | (reported, probe) =>
      rw [asked] at answer sound
      simp only at answer sound
      obtain ⟨best, same, kept⟩ := ih tracks.2 (better held { lane with probe } reported)
      rw [asEntry_better] at best
      refine ⟨?_, congrArg (lane.entry :: ·) same, List.forall_mem_cons.2 ⟨sound, kept⟩⟩
      rw [List.map_cons, Entry.reports_cons, List.foldl_append]
      rw [← answer]
      exact best

/-- What a running scan knows when it has come to its cursor. -/
structure Tracks (text : List Char) (entries : List Entry) (scan : Scan) : Prop where
  inside : scan.cursor.In text
  running : scan.finished = false
  entries : scan.lanes.map Lane.entry = entries
  lanes : ∀ lane ∈ scan.lanes, lane.Tracks text scan.cursor

/-- If no rule reports a match, the call finds nothing, and the scan is finished. -/
theorem Tracks.next_of_none (tracks : scan.Tracks text entries)
    (nothing : Entry.winner text scan.cursor entries = none) :
    scan.next.1 = none ∧ scan.next.2.finished = true := by
  obtain ⟨best, _, _⟩ := choose_eq tracks.inside tracks.lanes none
  rw [tracks.entries] at best
  have noBest := Option.map_eq_none_iff.1 (best.trans nothing)
  match chosen : choose scan.cursor none scan.lanes with
  | (best, lanes) =>
    rw [chosen] at noBest
    cases noBest
    simp [next, tracks.running, chosen]

/-- Otherwise it gives the span of the match that wins, and the scan goes on behind that. -/
theorem Tracks.next_of_some (tracks : scan.Tracks text entries)
    (won : Entry.winner text scan.cursor entries = some (entry, found)) :
    scan.next.1 = some (entry.spanOf scan.base found) ∧ scan.next.2.Tracks text entries ∧
      scan.next.2.cursor = found.stop ∧ scan.next.2.base = scan.base := by
  obtain ⟨best, same, kept⟩ := choose_eq tracks.inside tracks.lanes none
  rw [tracks.entries] at best same
  obtain ⟨startInside, stopInside, order, nonempty⟩ := Entry.winner_bounds tracks.inside won
  obtain ⟨⟨lane, reported⟩, isBest, isEntry⟩ := Option.map_eq_some_iff.1 (best.trans won)
  obtain ⟨sameEntry, sameMatch⟩ := Prod.mk.inj isEntry
  subst sameEntry sameMatch
  match chosen : choose scan.cursor none scan.lanes with
  | (best, lanes) =>
    rw [chosen] at isBest same kept
    cases isBest
    have result : scan.next = (some (lane.entry.spanOf scan.base reported),
        { scan with lanes, cursor := reported.stop }) := by
      simp [next, tracks.running, chosen, Entry.spanOf, Lane.entry]
    rw [result]
    -- The cursor has moved on, past matches that the lanes may still hold.
    refine ⟨rfl, ⟨stopInside, tracks.running, same, fun other known => ?_⟩, rfl, rfl⟩
    exact (kept other known).dropPassed (Nat.le_trans order (Nat.le_of_lt nonempty))

theorem iterate_of_finished (finished : scan.finished = true) (count : Nat) :
    scan.iterate count = List.replicate count none := by
  induction count with
  | zero => rfl
  | succ count ih =>
    have stays : scan.next = (none, scan) := if_pos finished
    simp only [iterate, stays, ih, List.replicate_succ]

/-- The answers to any number of calls are the fresh spans one by one, and then nothing. -/
theorem Tracks.iterate (tracks : scan.Tracks text entries) {fuel : Nat}
    (enough : scan.cursor.rest.length ≤ fuel) (count : Nat) :
    scan.iterate count = (List.range count).map fun call =>
      (Entry.spans scan.base text entries fuel scan.cursor)[call]? := by
  induction count generalizing scan fuel with
  | zero => rfl
  | succ count ih =>
    rw [List.range_succ_eq_map, List.map_cons, List.map_map, Scan.iterate]
    match won : Entry.winner text scan.cursor entries with
    | none =>
      obtain ⟨nothing, finished⟩ := tracks.next_of_none won
      -- A finished scan answers nothing for ever, as a list does behind its end.
      have empty : Entry.spans scan.base text entries fuel scan.cursor = [] := by
        cases fuel with
        | zero => rfl
        | succ fuel => simp [Entry.spans, won]
      simp only [nothing, iterate_of_finished finished, empty, List.getElem?_nil]
      congr 1
      exact (List.map_const' ..).trans (by rw [List.length_range]) |>.symm
    | some (entry, found) =>
      obtain ⟨answer, later, cursor, base⟩ := tracks.next_of_some won
      -- Each token takes a character, so the fuel lasts.
      have shorter := Entry.length_rest_lt_of_winner tracks.inside won
      cases fuel with
      | zero => exact absurd enough (by omega)
      | succ fuel =>
        simp only [answer, Entry.spans, won]
        have enoughLater : scan.next.2.cursor.rest.length ≤ fuel := by
          rw [cursor]
          omega
        rw [ih later enoughLater, cursor, base]
        rfl

theorem Tracks.take (tracks : scan.Tracks text entries) (count : Nat) :
    scan.take count = Entry.spans scan.base text entries count scan.cursor := by
  induction count generalizing scan with
  | zero => rfl
  | succ count ih =>
    rw [Scan.take, Entry.spans]
    match won : Entry.winner text scan.cursor entries with
    | none =>
      obtain ⟨nothing, _⟩ := tracks.next_of_none won
      match called : scan.next with
      | (answer, later) =>
        rw [called] at nothing
        cases nothing
        rfl
    | some (entry, found) =>
      obtain ⟨answer, laterTracks, cursor, base⟩ := tracks.next_of_some won
      match called : scan.next with
      | (span, later) =>
        rw [called] at answer laterTracks cursor base
        cases answer
        simp only at laterTracks cursor base
        simp only [ih laterTracks, cursor, base]

end Scan

namespace RuleTable

theorem probe_of_mem_lanes {text : List Char} {rules : List Rule} {lane : Lane}
    (known : lane ∈ lanes text rules) : lane.probe = .start text := by
  induction rules with
  | nil => cases known
  | cons rule rules ih =>
    obtain ⟨category, source, opening, closing, lookbehind, greedy, ignoreCase, nested⟩ := rule
    rcases List.mem_cons.1 known with rfl | later
    · rfl
    · exact ih later

theorem tracks_start {base : Nat} {text : List Char} {rules : List Rule} {entries : List Entry}
    (same : (lanes text rules).map Lane.entry = entries) :
    (Scan.start base text (lanes text rules)).Tracks text entries where
  inside := Place.first_in text
  running := rfl
  entries := same
  lanes := by
    intro lane known
    unfold Lane.Tracks
    rw [probe_of_mem_lanes known]
    exact Probe.sound_start.dropPassed (Nat.le_refl _)

mutual

/-- Classifying a text gives its fresh spans, at any depth. -/
theorem classifyAt_eq_freshAt (table : RuleTable) (base : Nat) (text : List Char) :
    table.classifyAt base text = table.freshAt base text :=
  match table with
  | .ofRules rules => (tracks_start (map_entry_lanes text rules)).take _

theorem map_entry_lanes (text : List Char) (rules : List Rule) :
    (lanes text rules).map Lane.entry = freshEntries rules :=
  match rules with
  | [] => rfl
  | ⟨_, _, _, _, _, _, _, nested⟩ :: rules =>
    congr (congrArg (Entry.mk _ · :: ·) (inside_eq_freshInside nested)) (map_entry_lanes text rules)

theorem inside_eq_freshInside (nested : Option RuleTable) : inside nested = freshInside nested :=
  match nested with
  | none => rfl
  | some table => funext fun base => funext fun text => classifyAt_eq_freshAt table base text

end

theorem tracks_scan (table : RuleTable) (text : List Char) :
    (table.scan text).Tracks text (freshEntries table.rules) :=
  tracks_start (map_entry_lanes text table.rules)

theorem classify_eq_freshAt (table : RuleTable) (text : List Char) :
    table.classify text = table.freshAt 0 text :=
  match table with
  | .ofRules rules => classifyAt_eq_freshAt (.ofRules rules) 0 text

theorem classify_of_rules {table : RuleTable} {rules : List Rule} (same : table.rules = rules)
    (text : List Char) :
    table.classify text = Entry.spans 0 text (freshEntries rules) text.length (.first text) := by
  obtain ⟨others⟩ := table
  cases same
  rw [classify_eq_freshAt, freshAt]
  rfl

/-- However often it is called, a scan answers with the spans of scanning without memory, one by one,
and with nothing behind the last of them. -/
theorem iterate_scan (table : RuleTable) (text : List Char) (count : Nat) :
    (table.scan text).iterate count =
      (List.range count).map fun call => (table.freshAt 0 text)[call]? := by
  cases table with
  | ofRules rules => exact (tracks_scan (.ofRules rules) text).iterate (Nat.le_refl _) count

end RuleTable

end Highlighter
