import Highlighter.Proofs.Scan.Refinement
import Highlighter.Proofs.Span.Fitting

/-!
Classifying a text gives a forest that fits it. The spans of a scan are in order and apart, whatever the
patterns are, and what lies inside a span is classified by a scan of its own text, so the forest fits at
any depth (`RuleTable.checkAll_freshAt`). Every scan that occurs on the way is one of a slice of the
text, and cuts that slice only between two characters (`RuleTable.Occurs.staysWithin`).
-/

set_option autoImplicit false

namespace Highlighter

namespace Span

/-- A text lies in a larger one, where byte `base` is. -/
def Lies (source : List Char) (base : Nat) (text : List Char) : Prop :=
  slice? source base (base + byteLength text) = some text

variable {source text : List Char} {base : Nat} {place later : Place}

theorem Lies.isBoundary (lies : Lies source base text) (inside : place.In text) :
    isBoundary source (base + place.offset) = true := by
  obtain ⟨before, behind, split, reached, _⟩ := slice?_eq_some_iff.1 lies
  obtain ⟨read, textSplit, textReached, _⟩ := inside
  refine isBoundary_iff.2 ⟨before ++ read, place.rest ++ behind, ?_, ?_⟩
  · rw [split, textSplit, List.append_assoc, List.append_assoc]
  · rw [byteLength_append, reached, textReached]

theorem Lies.upTo (lies : Lies source base text) (inside : place.In text) (laterInside : later.In text)
    (order : place.offset ≤ later.offset) :
    Lies source (base + place.offset) (place.upTo later) ∧
      base + place.offset + byteLength (place.upTo later) = base + later.offset := by
  obtain ⟨before, behind, split, reached, _⟩ := slice?_eq_some_iff.1 lies
  obtain ⟨read, rest, textSplit, textReached, length⟩ :=
    slice?_eq_some_iff.1 (inside.slice?_upTo laterInside order)
  refine ⟨slice?_eq_some_iff.2 ⟨before ++ read, rest ++ behind, ?_, ?_, rfl⟩, ?_⟩
  · rw [split, textSplit]
    simp only [List.append_assoc]
  · rw [byteLength_append, reached, textReached]
  · rw [Nat.add_assoc, length]

theorem lies_self (text : List Char) : Lies text 0 text := by
  unfold Lies
  rw [Nat.zero_add]
  exact slice?_self text

/-- What a classifier finds in a text fits there, wherever the text lies. -/
def Fits (inside : Nat → List Char → List Span) : Prop :=
  ∀ source base text, Lies source base text →
    checkAll source base base (base + byteLength text) (inside base text) = .ok ()

end Span

namespace Entry

open Highlighter.Span

variable {source text : List Char} {base : Nat} {cursor : Place} {entries : List Entry}

/-- What is inside a match is found in its own text, which lies where the span does. -/
theorem isPlaced_spanOf {entry : Entry} {found : Match} (fits : Fits entry.inside)
    (lies : Lies source base text) (startInside : found.start.In text) (stopInside : found.stop.In text)
    (order : cursor.offset ≤ found.start.offset)
    (nonempty : found.start.offset < found.stop.offset) :
    (spanOf base entry found).IsPlaced source (base + cursor.offset) (base + byteLength text) where
  nonempty := Nat.add_lt_add_left nonempty base
  ahead := Nat.add_le_add_left order base
  bounded := Nat.add_le_add_left stopInside.offset_le base
  starts := lies.isBoundary startInside
  stops := lies.isBoundary stopInside
  children := by
    obtain ⟨tokenLies, token⟩ := lies.upTo startInside stopInside (Nat.le_of_lt nonempty)
    have inner := fits source _ _ tokenLies
    rwa [token] at inner

theorem checkAll_spans (fits : ∀ entry ∈ entries, Fits entry.inside) (lies : Lies source base text)
    (inside : cursor.In text) (count : Nat) :
    checkAll source (base + cursor.offset) base (base + byteLength text)
      (spans base text entries count cursor) = .ok () := by
  induction count generalizing cursor with
  | zero => rfl
  | succ count ih =>
    unfold spans
    cases won : winner text cursor entries with
    | none => rfl
    | some best =>
      obtain ⟨entry, found⟩ := best
      obtain ⟨startInside, stopInside, order, nonempty⟩ := winner_bounds inside won
      have placed := isPlaced_spanOf (fits entry (report_of_winner won).1) lies startInside stopInside
        order nonempty
      exact checkAll_cons_eq_ok_iff.2 ⟨placed, ih stopInside⟩

theorem length_spans_le (base : Nat) (text : List Char) (entries : List Entry) (count : Nat)
    (cursor : Place) : (spans base text entries count cursor).length ≤ count := by
  induction count generalizing cursor with
  | zero => exact Nat.le_refl 0
  | succ count ih =>
    unfold spans
    split
    · exact Nat.zero_le _
    · exact Nat.succ_le_succ (ih _)

end Entry

namespace RuleTable

open Highlighter.Span

mutual

theorem checkAll_freshAt (table : RuleTable) : Fits table.freshAt :=
  match table with
  | .ofRules rules => fun _ _ text lies =>
    Entry.checkAll_spans (fits_freshEntries rules) lies (Place.first_in text) _

theorem fits_freshEntries (rules : List Rule) : ∀ entry ∈ freshEntries rules, Fits entry.inside :=
  match rules with
  | [] => List.forall_mem_nil _
  | ⟨_, _, _, _, _, _, _, nested⟩ :: rules =>
    List.forall_mem_cons.2 ⟨fits_freshInside nested, fits_freshEntries rules⟩

theorem fits_freshInside (nested : Option RuleTable) : Fits (freshInside nested) :=
  match nested with
  | none => fun _ _ _ _ => rfl
  | some table => checkAll_freshAt table

end

end RuleTable

theorem RuleTable.check_classify (table : RuleTable) (text : List Char) :
    Span.check text (table.classify text) = .ok () := by
  have fits := checkAll_freshAt table text 0 text (Span.lies_self text)
  rwa [Nat.zero_add, ← classify_eq_freshAt] at fits

/-- The states of a probe while it searches at a cursor. -/
inductive Probe.Comes {Inner : Type} (rule : RuleOf Inner) (cursor : Place) (probe : Probe) :
    Probe → Prop where
  | start : Comes rule cursor probe (probe.dropPassed cursor)
  | search {later : Probe} : Comes rule cursor probe later → later.isSettled = false →
      Comes rule cursor probe (later.step rule cursor)

theorem Probe.Comes.sound {Inner : Type} {rule : RuleOf Inner} {text : List Char} {cursor : Place}
    {probe later : Probe} (comes : Comes rule cursor probe later) (inside : cursor.In text)
    (sound : (probe.dropPassed cursor).Sound rule text cursor) : later.Sound rule text cursor := by
  induction comes with
  | start => exact sound
  | search _ unsettled ih => exact ih.step inside unsettled

namespace Scan

variable {text : List Char} {entries : List Entry} {scan : Scan}

/-- The next call cuts the text only between two characters: where it searches, where it goes on from
what it has found, and around the token that it chooses. -/
structure StaysWithin (text : List Char) (scan : Scan) : Prop where
  searches : ∀ lane ∈ scan.lanes, ∀ probe, Probe.Comes lane.rule scan.cursor lane.probe probe →
    ∀ place ∈ probe.resumeFor lane.rule scan.cursor,
      dropBytes? text place.offset = some place.rest ∧
        ∀ found ∈ (lane.rule.search place probe.closer).1,
          dropBytes? text found.context.offset = some found.context.rest
  token : ∀ chosen ∈ (choose scan.cursor none scan.lanes).1,
    slice? text chosen.2.start.offset chosen.2.stop.offset =
      some (chosen.2.start.upTo chosen.2.stop)

theorem Tracks.winner_of_chosen (tracks : scan.Tracks text entries) {chosen : Lane × Match}
    (isChosen : chosen ∈ (choose scan.cursor none scan.lanes).1) :
    Entry.winner text scan.cursor entries = some (asEntry chosen) := by
  obtain ⟨best, _, _⟩ := choose_eq tracks.inside tracks.lanes none
  rw [tracks.entries, Option.mem_def.1 isChosen] at best
  exact best.symm

theorem Tracks.staysWithin (tracks : scan.Tracks text entries) : scan.StaysWithin text where
  searches := by
    intro lane known probe comes place resumes
    have sound := comes.sound tracks.inside (tracks.lanes lane known)
    have placeInside := (sound.covers_resumeFor tracks.inside resumes).inside
    refine ⟨placeInside.dropBytes?, fun found isFound => ?_⟩
    match searched : lane.rule.opening.search place with
    | none =>
      rw [RuleOf.search_eq_none searched] at isFound
      cases isFound
    | some (context, reach) =>
      obtain ⟨other, closer, result, _, isMatch⟩ :=
        RuleOf.exists_search_eq_some placeInside sound.keepsCloser searched
      rw [result] at isFound
      cases isFound
      obtain ⟨contextInside, _⟩ := Pattern.bounds_of_search placeInside searched
      rw [(RuleOf.freshMatch_bounds contextInside isMatch).1]
      exact contextInside.dropBytes?
  token := by
    intro chosen isChosen
    obtain ⟨startInside, stopInside, _, nonempty⟩ :=
      Entry.winner_bounds tracks.inside (tracks.winner_of_chosen isChosen)
    exact startInside.slice?_upTo stopInside (Nat.le_of_lt nonempty)

theorem Tracks.call (tracks : scan.Tracks text entries) :
    scan.next.2.finished = true ∨ scan.next.2.Tracks text entries ∧ scan.next.2.base = scan.base := by
  match won : Entry.winner text scan.cursor entries with
  | none => exact .inl (tracks.next_of_none won).2
  | some (entry, found) =>
    obtain ⟨_, later, _, base⟩ := tracks.next_of_some won
    exact .inr ⟨later, base⟩

end Scan

namespace RuleTable

open Highlighter.Span

/-- The scans that occur while a text is classified, each with the text that it scans: the first one,
those that its calls lead to, and those of the tokens whose rule has a table of its own. -/
inductive Occurs (table : RuleTable) (text : List Char) : List Char → Scan → Prop where
  | start : Occurs table text text (table.scan text)
  | call {inner : List Char} {scan : Scan} : Occurs table text inner scan →
      Occurs table text inner scan.next.2
  | nest {inner : List Char} {scan : Scan} {lane : Lane} {found : Match} {nested : RuleTable} :
      Occurs table text inner scan → scan.finished = false →
      (lane, found) ∈ (Scan.choose scan.cursor none scan.lanes).1 →
      lane.rule.nested = some nested →
      Occurs table text (found.start.upTo found.stop)
        (.start (scan.base + found.start.offset) (found.start.upTo found.stop)
          (lanes (found.start.upTo found.stop) nested.rules))

/-- A scan that has not finished scans a slice of the text, and tracks its rules there. -/
theorem Occurs.tracks {table : RuleTable} {text inner : List Char} {scan : Scan}
    (occurs : table.Occurs text inner scan) (running : scan.finished = false) :
    Lies text scan.base inner ∧ ∃ entries, scan.Tracks inner entries := by
  induction occurs with
  | start => exact ⟨lies_self text, _, tracks_scan table text⟩
  | @call inner scan _ ih =>
    cases finished : scan.finished with
    | true =>
      rw [show scan.next = (none, scan) from if_pos finished, finished] at running
      cases running
    | false =>
      obtain ⟨lies, entries, tracks⟩ := ih finished
      rcases tracks.call with stopped | ⟨later, base⟩
      · rw [stopped] at running
        cases running
      · rw [base]
        exact ⟨lies, entries, later⟩
  | nest _ outerRunning isChosen _ ih =>
    obtain ⟨lies, entries, tracks⟩ := ih outerRunning
    obtain ⟨startInside, stopInside, _, nonempty⟩ :=
      Entry.winner_bounds tracks.inside (tracks.winner_of_chosen isChosen)
    exact ⟨(lies.upTo startInside stopInside (Nat.le_of_lt nonempty)).1, _,
      tracks_start (map_entry_lanes _ _)⟩

/-- Any number of calls give the spans of a finite forest that fits the text, and then nothing. At the
top there are no more spans than characters. Every scan on the way is one of a slice of the text, and
takes only slices of that. -/
theorem classify_fits (table : RuleTable) (text : List Char) :
    check text (table.classify text) = .ok () ∧
      (table.classify text).length ≤ text.length ∧
      (∀ count, (table.scan text).iterate count =
        (List.range count).map fun call => (table.classify text)[call]?) ∧
      ∀ inner scan, table.Occurs text inner scan → scan.finished = false →
        slice? text scan.base (scan.base + byteLength inner) = some inner ∧
          scan.StaysWithin inner := by
  obtain ⟨rules⟩ := table
  refine ⟨?_, ?_, fun count => ?_, fun inner scan occurs running => ?_⟩
  · rw [classify_eq_freshAt]
    have fits := checkAll_freshAt (.ofRules rules) text 0 text (lies_self text)
    rwa [Nat.zero_add] at fits
  · rw [classify_eq_freshAt]
    exact Entry.length_spans_le ..
  · rw [classify_eq_freshAt]
    exact (tracks_scan (.ofRules rules) text).iterate (Nat.le_refl _) count
  · obtain ⟨lies, entries, tracks⟩ := occurs.tracks running
    exact ⟨lies, tracks.staysWithin⟩

end RuleTable

end Highlighter
