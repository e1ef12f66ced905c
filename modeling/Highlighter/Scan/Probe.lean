import Highlighter.Pattern.Search
import Highlighter.Rule

/-!
Probes. A probe looks for the matches of one rule through one scan of a text. It keeps the match it
found last until the scan has gone past it, and never searches again where it has searched before.
-/

set_option autoImplicit false

namespace Highlighter

/-- One match of a rule: the token from `start` to `stop`, and what precedes it from `context` on. -/
structure Match where
  context : Place
  start : Place
  stop : Place
  deriving DecidableEq, Repr

/-- The last search for a closing match: where it began, and the match it found, if there was one up
to the end of the text. -/
structure Closer where
  sought : Place
  found : Option (Place × Place)
  deriving DecidableEq, Repr

namespace Closer

def searchFrom (closing : Pattern) (place : Place) : Closer :=
  ⟨place, (closing.search place).map fun (start, reach) => (start, reach.place)⟩

def stop (closer : Closer) : Place :=
  match closer.found with
  | some (_, stop) => stop
  | none => closer.sought.last

/-- The last search answers for `place` too if it began no later, and what it found, if anything,
does not begin before `place`. -/
def answers (closer : Closer) (place : Place) : Bool :=
  closer.sought.offset ≤ place.offset && closer.found.all (place.offset ≤ ·.1.offset)

/-- The closer for `place`: the last one if it answers, or else a new search. -/
def next (closing : Pattern) (place : Place) (last : Option Closer) : Closer :=
  match last with
  | some closer => if closer.answers place then closer else searchFrom closing place
  | none => searchFrom closing place

end Closer

namespace RuleOf

variable {Inner : Type}

/-- Where the token of a match begins that has come to `reach` from `start`. -/
def tokenStart (rule : RuleOf Inner) (start : Place) (reach : Reach) : Place :=
  if rule.lookbehind then reach.context.getD start else start

/-- The leftmost match whose context begins at `from` or later, and the closer used for it. -/
def search (rule : RuleOf Inner) (place : Place) (last : Option Closer) :
    Option Match × Option Closer :=
  match rule.opening.search place with
  | none => (none, last)
  | some (context, reach) =>
    let start := rule.tokenStart context reach
    match rule.closing with
    | none => (some ⟨context, start, reach.place⟩, last)
    | some (_, closing) =>
      let closer := Closer.next closing reach.place last
      (some ⟨context, start, closer.stop⟩, some closer)

end RuleOf

/-- What is known of one rule during a scan. -/
structure Probe where
  /-- Where the next search begins; nothing is left to search behind the end of the text. -/
  resume : Option Place
  pending : Option Match := none
  closer : Option Closer := none
  exhausted : Bool := false
  deriving DecidableEq, Repr

namespace Probe

variable {Inner : Type}

def start (text : List Char) : Probe := { resume := some (.first text) }

/-- Without context a token begins where its match does, so there is no need to search before the
cursor. -/
def resumeFor (probe : Probe) (rule : RuleOf Inner) (cursor : Place) : Option Place :=
  if rule.lookbehind then probe.resume else probe.resume.map (·.further cursor)

/-- A match is of use if its token is not empty and does not begin before the cursor. -/
def useful (cursor : Place) (found : Match) : Bool :=
  cursor.offset ≤ found.start.offset && found.start.offset < found.stop.offset

/-- Search once. The probe then goes on one character behind the context of what was found. -/
def step (probe : Probe) (rule : RuleOf Inner) (cursor : Place) : Probe :=
  match probe.resumeFor rule cursor with
  | none => { probe with exhausted := true }
  | some place =>
    match rule.search place probe.closer with
    | (none, closer) => { probe with resume := some place, closer, exhausted := true }
    | (some found, closer) =>
      { probe with
        resume := found.context.next?, closer
        pending := if useful cursor found then some found else none }

def isSettled (probe : Probe) : Bool := probe.exhausted || probe.pending.isSome

def stepUnlessSettled (probe : Probe) (rule : RuleOf Inner) (cursor : Place) : Probe :=
  if probe.isSettled then probe else probe.step rule cursor

/-- Search until the probe is settled. There is at most one search for each character that is left, one
at the end of the text and one behind it. -/
def advance (rule : RuleOf Inner) (cursor : Place) : List Char → Probe → Probe
  | [], probe => (probe.stepUnlessSettled rule cursor).stepUnlessSettled rule cursor
  | _ :: rest, probe =>
    if probe.isSettled then probe else advance rule cursor rest (probe.step rule cursor)

def left (probe : Probe) : List Char :=
  match probe.resume with
  | none => []
  | some place => place.rest

/-- Forget a match that begins before the cursor. -/
def dropPassed (probe : Probe) (cursor : Place) : Probe :=
  { probe with pending := probe.pending.filter (cursor.offset ≤ ·.start.offset) }

/-- The first useful match of `rule` from `cursor` on. The cursor must not go back from one call to
the next. -/
def next (probe : Probe) (rule : RuleOf Inner) (cursor : Place) : Option Match × Probe :=
  let probe := probe.dropPassed cursor
  let probe := advance rule cursor probe.left probe
  (probe.pending, probe)

end Probe

end Highlighter
