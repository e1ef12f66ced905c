import Highlighter.Scan.Probe
import Highlighter.Span

/-!
Scanning a text with a table. Every rule is asked for its first match from the cursor on, and one of
the matches is chosen: the one that begins first; of several, that of the rule tried first, unless a
greedy rule has a longer one and the rule chosen so far is not greedy. The cursor goes to the end of
the match, and what lies inside is classified by the table nested in the rule, if it has one.
-/

set_option autoImplicit false

namespace Highlighter

/-- One rule in a scan, with its probe and the classifier for the inside of its matches, which is
told where in the whole text that inside begins. -/
structure Lane where
  rule : Rule
  inside : Nat → List Char → List Span
  probe : Probe

structure Scan where
  /-- Where the scanned text begins in the text that spans are given for. -/
  base : Nat
  cursor : Place
  lanes : List Lane
  finished : Bool := false

namespace Scan

/-- Whether a match takes the place of the one held so far. -/
def preempts (held : Lane × Match) (lane : Lane) (found : Match) : Bool :=
  found.start.offset < held.2.start.offset ||
    (found.start.offset == held.2.start.offset && lane.rule.greedy && !held.1.rule.greedy &&
      held.2.stop.offset < found.stop.offset)

/-- Ask the rules one by one, starting with `held` as the best match. -/
def choose (cursor : Place) (held : Option (Lane × Match)) :
    List Lane → Option (Lane × Match) × List Lane
  | [] => (held, [])
  | lane :: lanes =>
    let (found, probe) := lane.probe.next lane.rule cursor
    let lane := { lane with probe }
    let held := match found, held with
      | none, held => held
      | some found, none => some (lane, found)
      | some found, some best => if preempts best lane found then some (lane, found) else some best
    let (best, others) := choose cursor held lanes
    (best, lane :: others)

/-- The next top-level span; after the last one there is none, however often it is asked for. -/
def next (scan : Scan) : Option Span × Scan :=
  if scan.finished then (none, scan)
  else
    match choose scan.cursor none scan.lanes with
    | (none, lanes) => (none, { scan with lanes, finished := true })
    | (some (lane, found), lanes) =>
      let start := scan.base + found.start.offset
      let span : Span := {
        category := lane.rule.category, start, stop := scan.base + found.stop.offset
        children := lane.inside start (found.start.upTo found.stop) }
      (some span, { scan with lanes, cursor := found.stop })

/-- The next `count` answers. -/
def iterate : Nat → Scan → List (Option Span)
  | 0, _ => []
  | count + 1, scan =>
    let (span, scan) := scan.next
    span :: scan.iterate count

/-- The next spans, at most `count` of them. -/
def take : Nat → Scan → List Span
  | 0, _ => []
  | count + 1, scan =>
    match scan.next with
    | (none, _) => []
    | (some span, scan) => span :: scan.take count

/-- All spans that are left. Each takes at least one character. -/
def toList (scan : Scan) : List Span := scan.take scan.cursor.rest.length

def start (base : Nat) (text : List Char) (lanes : List Lane) : Scan :=
  { base, cursor := .first text, lanes }

end Scan

namespace RuleTable

mutual

/-- Classify a text that begins at byte `base` of a larger one. -/
def classifyAt : RuleTable → Nat → List Char → List Span
  | .ofRules rules, base, text => (Scan.start base text (lanes text rules)).toList

/-- The lanes of a scan of `text` with these rules. -/
def lanes (text : List Char) : List Rule → List Lane
  | [] => []
  | ⟨category, source, opening, closing, lookbehind, greedy, ignoreCase, nested⟩ :: rules =>
    ⟨⟨category, source, opening, closing, lookbehind, greedy, ignoreCase, nested⟩,
      inside nested, .start text⟩ :: lanes text rules

/-- The spans inside a match of a rule with this nested table. -/
def inside : Option RuleTable → Nat → List Char → List Span
  | none, _, _ => []
  | some table, base, text => table.classifyAt base text

end

/-- Begin a scan of `text`. -/
def scan (table : RuleTable) (text : List Char) : Scan := .start 0 text (lanes text table.rules)

/-- The top-level spans of `text` from left to right, each with the spans inside it. -/
def classify (table : RuleTable) (text : List Char) : List Span := (table.scan text).toList

end RuleTable

end Highlighter
