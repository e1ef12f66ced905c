import Highlighter.Proofs.Scan.Alike
import Highlighter.Proofs.Scan.Erasure
import Highlighter.Proofs.Scan.WellFormed

/-!
What is inside a span. A scan of a text that begins at some byte of a larger one gives the spans of the
text by itself, moved by that many bytes, at any depth (`RuleTable.freshAt_eq_shift`). So what is inside a
span depends on the nested table and the span's own text only. And the scan of a text does not look at
nested tables: without them it gives the same spans, with nothing inside (`Entry.spans_bare`).
-/

set_option autoImplicit false

namespace Highlighter

namespace Span

mutual

/-- The span so many bytes further on, with all that is inside it. -/
def shift (bytes : Nat) : Span → Span
  | ⟨category, start, stop, children⟩ =>
    ⟨category, bytes + start, bytes + stop, shiftAll bytes children⟩

def shiftAll (bytes : Nat) : List Span → List Span
  | [] => []
  | span :: spans => span.shift bytes :: shiftAll bytes spans

end

mutual

theorem shift_shift (bytes more : Nat) (span : Span) :
    (span.shift more).shift bytes = span.shift (bytes + more) :=
  match span with
  | ⟨_, _, _, children⟩ => by
    simp only [shift, shiftAll_shiftAll bytes more children, Nat.add_assoc]

theorem shiftAll_shiftAll (bytes more : Nat) (spans : List Span) :
    shiftAll bytes (shiftAll more spans) = shiftAll (bytes + more) spans :=
  match spans with
  | [] => rfl
  | span :: spans => by
    simp only [shiftAll, shift_shift bytes more span, shiftAll_shiftAll bytes more spans]

end

/-- What a classifier finds does not depend on where the text lies, but for the offsets. -/
def Shifts (inside : Nat → List Char → List Span) : Prop :=
  ∀ base text, inside base text = shiftAll base (inside 0 text)

/-- The span without what is inside it. -/
def outline (span : Span) : Category × Nat × Nat := (span.category, span.start, span.stop)

end Span

namespace Entry

open Highlighter.Span

variable {text : List Char} {cursor : Place} {entries : List Entry} {entry : Entry} {found : Match}

theorem spanOf_eq_shift (shifts : Shifts entry.inside) (base : Nat) (found : Match) :
    spanOf base entry found = (spanOf 0 entry found).shift base := by
  unfold spanOf
  rw [shifts (base + found.start.offset), shifts (0 + found.start.offset)]
  simp only [shift, shiftAll_shiftAll, Nat.zero_add]

theorem spans_eq_shift (shifts : ∀ entry ∈ entries, Shifts entry.inside) (base count : Nat)
    (cursor : Place) :
    spans base text entries count cursor = shiftAll base (spans 0 text entries count cursor) := by
  induction count generalizing cursor with
  | zero => rfl
  | succ count ih =>
    -- Who wins does not depend on the base.
    unfold spans
    cases won : winner text cursor entries with
    | none => rfl
    | some best =>
      simp only [shiftAll, ih]
      rw [spanOf_eq_shift (shifts best.1 (report_of_winner won).1)]

end Entry

namespace RuleTable

open Highlighter.Span

mutual

theorem freshAt_eq_shift (table : RuleTable) : Shifts table.freshAt :=
  match table with
  | .ofRules rules => fun base _ => Entry.spans_eq_shift (shifts_freshEntries rules) base _ _

theorem shifts_freshEntries (rules : List Rule) : ∀ entry ∈ freshEntries rules, Shifts entry.inside :=
  match rules with
  | [] => List.forall_mem_nil _
  | ⟨_, _, _, _, _, _, _, nested⟩ :: rules =>
    List.forall_mem_cons.2 ⟨shifts_freshInside nested, shifts_freshEntries rules⟩

theorem shifts_freshInside (nested : Option RuleTable) : Shifts (freshInside nested) :=
  match nested with
  | none => fun _ _ => rfl
  | some table => freshAt_eq_shift table

end

end RuleTable

/-! ### Without nested tables -/

def RuleOf.bare (rule : Rule) : Rule := { rule with nested := none }

namespace Entry

/-- The entry without its nested table, so that it finds nothing inside its matches. -/
def bare (entry : Entry) : Entry := ⟨entry.rule.bare, fun _ _ => []⟩

variable {text : List Char} {entries : List Entry}

/-- Nested tables do not matter to the spans of a scan, but for what is inside them. -/
theorem spans_bare (base count : Nat) (cursor : Place) :
    spans base text (entries.map bare) count cursor =
      (spans base text entries count cursor).map fun span => { span with children := [] } := by
  induction count generalizing cursor with
  | zero => rfl
  | succ count ih =>
    have all : List.Forall₂ (fun entry other => other = bare entry) entries (entries.map bare) :=
      List.forall₂_map_right_iff.2 (List.forall₂_same.2 fun _ _ => rfl)
    have won : Option.Rel (Beside fun entry other => other = bare entry) (winner text cursor entries)
        (winner text cursor (entries.map bare)) :=
      winner_beside all (by rintro _ _ rfl; rfl) (by rintro _ _ rfl; rfl)
    unfold spans
    generalize winner text cursor entries = best, winner text cursor (entries.map bare) = other at won ⊢
    cases won with
    | none => rfl
    | @some best other beside =>
      obtain ⟨isBare, same⟩ := beside
      dsimp only
      rw [isBare, same, ih]
      rfl

end Entry

/-! ### The rule behind a span -/

namespace Scan

/-- The rule of the match that the next call chooses. -/
def nextRule? (scan : Scan) : Option Rule :=
  if scan.finished then none else (choose scan.cursor none scan.lanes).1.map (·.1.rule)

/-- The spans that `take` gives, each with the rule of the match that was chosen for it. -/
def takeWithRules : Nat → Scan → List (Rule × Span)
  | 0, _ => []
  | count + 1, scan =>
    match scan.nextRule?, scan.next with
    | some rule, (some span, later) => (rule, span) :: later.takeWithRules count
    | _, _ => []

variable {text : List Char} {scan : Scan} {entries : List Entry}

theorem Tracks.nextRule?_eq (tracks : scan.Tracks text entries) :
    scan.nextRule? = (Entry.winner text scan.cursor entries).map (·.1.rule) := by
  obtain ⟨best, _, _⟩ := choose_eq tracks.inside tracks.lanes none
  rw [tracks.entries] at best
  have won : (choose scan.cursor none scan.lanes).1.map asEntry =
      Entry.winner text scan.cursor entries := best
  rw [nextRule?, tracks.running, ← won, Option.map_map]
  rfl

theorem Tracks.takeWithRules (tracks : scan.Tracks text entries) (count : Nat) :
    (scan.takeWithRules count).map (·.2) = scan.take count ∧
      ∀ given ∈ scan.takeWithRules count, ∃ entry ∈ entries, ∃ found : Match,
        found.start.In text ∧ found.stop.In text ∧ found.start.offset < found.stop.offset ∧
          given = (entry.rule, entry.spanOf scan.base found) := by
  -- Each call of the scan gives the span of the winner, and the rule of it is read before the call.
  induction count generalizing scan with
  | zero => exact ⟨rfl, List.forall_mem_nil _⟩
  | succ count ih =>
    have rule := tracks.nextRule?_eq
    match won : Entry.winner text scan.cursor entries with
    | none =>
      rw [won] at rule
      obtain ⟨nothing, _⟩ := tracks.next_of_none won
      match called : scan.next with
      | (answer, later) =>
        rw [called] at nothing
        cases nothing
        simp [Scan.takeWithRules, Scan.take, rule, called]
    | some (entry, found) =>
      rw [won] at rule
      obtain ⟨answer, laterTracks, _, base⟩ := tracks.next_of_some won
      obtain ⟨startInside, stopInside, _, nonempty⟩ := Entry.winner_bounds tracks.inside won
      match called : scan.next with
      | (span, later) =>
        rw [called] at answer laterTracks base
        cases answer
        obtain ⟨same, given⟩ := ih laterTracks
        rw [base] at given
        simp only [Scan.takeWithRules, Scan.take, rule, called, Option.map_some, List.map_cons, same,
          List.forall_mem_cons]
        exact ⟨trivial, ⟨entry, (Entry.report_of_winner won).1, found, startInside, stopInside,
          nonempty, rfl⟩, given⟩

end Scan

namespace RuleTable

open Highlighter.Span

/-- What a rule with this nested table finds in the text of a match. -/
def classifyInside : Option RuleTable → List Char → List Span
  | none, _ => []
  | some table, text => table.classify text

/-- The spans of a text, each with the rule of the match that was chosen for it. -/
def classifyWithRules (table : RuleTable) (text : List Char) : List (Rule × Span) :=
  (table.scan text).takeWithRules text.length

theorem freshInside_eq (nested : Option RuleTable) (base : Nat) (text : List Char) :
    freshInside nested base text = shiftAll base (classifyInside nested text) := by
  rw [shifts_freshInside nested base text]
  cases nested with
  | none => rfl
  | some table => exact congrArg (shiftAll base) (classify_eq_freshAt table text).symm

end RuleTable

/-- The span is of the rule's category, and inside it is what the nested table finds in the span's own
text, moved to where the span begins. -/
structure Span.IsGivenBy (text : List Char) (rule : Rule) (span : Span) : Prop where
  category : span.category = rule.category
  children : ∃ own, slice? text span.start span.stop = some own ∧
    span.children = shiftAll span.start (RuleTable.classifyInside rule.nested own)

namespace RuleTable

open Highlighter.Span

theorem isGivenBy_spanOf {text : List Char} {rule : Rule} {found : Match}
    (startInside : found.start.In text) (stopInside : found.stop.In text)
    (order : found.start.offset ≤ found.stop.offset) :
    (Entry.spanOf 0 ⟨rule, freshInside rule.nested⟩ found).IsGivenBy text rule where
  category := rfl
  children := by
    refine ⟨found.start.upTo found.stop, ?_, freshInside_eq ..⟩
    simp only [Entry.spanOf, Nat.zero_add]
    exact startInside.slice?_upTo stopInside order

theorem isGivenBy_of_mem {table : RuleTable} {text : List Char} {given : Rule × Span}
    (known : given ∈ table.classifyWithRules text) :
    given.1 ∈ table.rules ∧ given.2.IsGivenBy text given.1 := by
  obtain ⟨_, all⟩ := (tracks_scan table text).takeWithRules text.length
  obtain ⟨entry, isEntry, found, startInside, stopInside, nonempty, rfl⟩ := all given known
  obtain ⟨rule, isRule, rfl⟩ := mem_freshEntries.1 isEntry
  exact ⟨isRule, isGivenBy_spanOf startInside stopInside (Nat.le_of_lt nonempty)⟩

theorem freshEntries_bare (rules : List Rule) :
    freshEntries (rules.map RuleOf.bare) = (freshEntries rules).map Entry.bare := by
  simp only [freshEntries_eq_map, List.map_map]
  rfl

/-- Rules that differ in their nested tables only give spans of the same categories at the same places. -/
theorem outline_classify_of_bare {rules others : List Rule}
    (same : rules.map RuleOf.bare = others.map RuleOf.bare) (text : List Char) :
    ((ofRules rules).classify text).map outline = ((ofRules others).classify text).map outline := by
  have outlines (rules : List Rule) : ((ofRules rules).classify text).map outline =
      ((ofRules (rules.map RuleOf.bare)).classify text).map outline := by
    rw [classify_of_rules rfl, classify_of_rules rfl, rules_ofRules, rules_ofRules, freshEntries_bare,
      Entry.spans_bare, List.map_map]
    rfl
  rw [outlines rules, same, ← outlines others]

theorem map_bare_mapIdx (rules : List Rule) (nest : Nat → Option RuleTable) :
    (rules.mapIdx fun index rule => { rule with nested := nest index }).map RuleOf.bare =
      rules.map RuleOf.bare := by
  apply List.ext_getElem?
  intro index
  simp only [List.getElem?_map, List.getElem?_mapIdx, Option.map_map]
  rfl

/-- Whatever the table and the text, each span comes from a rule of the table, and inside it is what the
rule's nested table finds in the span's own text by itself, moved to where the span begins. So two spans,
of any texts and tables, have the same inside if their own texts and the nested tables are the same. Other
nested tables, or none, do not change which spans there are. -/
theorem classify_nested (table : RuleTable) (text : List Char) :
    (table.classifyWithRules text).map (·.2) = table.classify text ∧
      (∀ given ∈ table.classifyWithRules text,
        given.1 ∈ table.rules ∧ given.2.IsGivenBy text given.1) ∧
      (∀ (other : RuleTable) (otherText : List Char),
        ∀ given ∈ table.classifyWithRules text, ∀ otherGiven ∈ other.classifyWithRules otherText,
          given.1.nested = otherGiven.1.nested →
          given.2.text text = otherGiven.2.text otherText →
          shiftAll otherGiven.2.start given.2.children =
            shiftAll given.2.start otherGiven.2.children) ∧
      ∀ nest : Nat → Option RuleTable,
        ((ofRules (table.rules.mapIdx fun index rule =>
            { rule with nested := nest index })).classify text).map outline =
          (table.classify text).map outline := by
  refine ⟨?_, fun given known => isGivenBy_of_mem known, ?_, fun nest => ?_⟩
  · exact ((tracks_scan table text).takeWithRules text.length).1
  · intro other otherText given known otherGiven otherKnown sameTable sameText
    obtain ⟨_, own, slice, inside⟩ := (isGivenBy_of_mem known).2
    obtain ⟨_, otherOwn, otherSlice, otherInside⟩ := (isGivenBy_of_mem otherKnown).2
    have sameOwn : own = otherOwn :=
      (textOf_of_slice? slice).symm.trans (sameText.trans (textOf_of_slice? otherSlice))
    rw [inside, otherInside, shiftAll_shiftAll, shiftAll_shiftAll, sameTable, sameOwn, Nat.add_comm]
  · obtain ⟨rules⟩ := table
    exact outline_classify_of_bare (map_bare_mapIdx rules nest) text

end RuleTable

end Highlighter
