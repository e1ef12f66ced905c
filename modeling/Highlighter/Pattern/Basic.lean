import Highlighter.Pattern.CharSet
import Highlighter.Text.Place

/-!
Patterns in normal form. The functions that build patterns, `sequence`, `choice` and `repeated`, keep
to it: sequences and alternatives nest to the right, a sequence has neither empty parts nor two
literals side by side, alternatives that are single characters are one set, and what alternatives
begin with in common stands before them.
-/

set_option autoImplicit false

namespace Highlighter

/-- Conditions on a place that consume nothing. -/
inductive Anchor where
  | textStart
  | textEnd
  | lineStart
  | lineEnd
  /-- As `lineStart`, with a carriage return and CR LF as further line breaks. -/
  | anyLineStart
  | anyLineEnd
  | wordEdge (alphabet : Alphabet)
  | noWordEdge (alphabet : Alphabet)
  | wordStart (alphabet : Alphabet)
  | wordEnd (alphabet : Alphabet)
  /-- No word character before the place. -/
  | wordStartHalf (alphabet : Alphabet)
  /-- No word character after the place. -/
  | wordEndHalf (alphabet : Alphabet)
  deriving DecidableEq, Repr

namespace Anchor

def wordBefore (alphabet : Alphabet) (place : Place) : Bool := place.before.any alphabet.isWord

def wordAfter (alphabet : Alphabet) (place : Place) : Bool := place.rest.head?.any alphabet.isWord

def holds (place : Place) : Anchor → Bool
  | .textStart => place.before.isNone
  | .textEnd => place.rest.isEmpty
  | .lineStart => place.before.isNone || place.before == some '\n'
  | .lineEnd => place.rest.isEmpty || place.rest.head? == some '\n'
  | .anyLineStart =>
    place.before.isNone || place.before == some '\n' ||
      (place.before == some '\r' && place.rest.head? != some '\n')
  | .anyLineEnd =>
    place.rest.isEmpty || place.rest.head? == some '\r' ||
      (place.rest.head? == some '\n' && place.before != some '\r')
  | .wordEdge alphabet => wordBefore alphabet place != wordAfter alphabet place
  | .noWordEdge alphabet => wordBefore alphabet place == wordAfter alphabet place
  | .wordStart alphabet => !wordBefore alphabet place && wordAfter alphabet place
  | .wordEnd alphabet => wordBefore alphabet place && !wordAfter alphabet place
  | .wordStartHalf alphabet => !wordBefore alphabet place
  | .wordEndHalf alphabet => !wordAfter alphabet place

end Anchor

inductive Pattern where
  | empty
  /-- These characters one after the other. -/
  | literal (chars : List Char)
  | set (chars : CharSet)
  | assert (condition : Anchor)
  /-- A group in parentheses; they are numbered from 1 by where they open. -/
  | group (index : Nat) (body : Pattern)
  | seq (first second : Pattern)
  /-- `second` is tried where `first` leads nowhere. -/
  | alt (first second : Pattern)
  /-- At least `least` rounds of `body`, and at most `most` if there is such a bound; as many as
  possible if `eager`, or else as few as possible. -/
  | rounds (least : Nat) (most : Option Nat) (eager : Bool) (body : Pattern)
  deriving DecidableEq, Repr

namespace Pattern

def hasGroup : Pattern → Bool
  | .empty | .literal _ | .set _ | .assert _ => false
  | .group _ _ => true
  | .seq first second | .alt first second => first.hasGroup || second.hasGroup
  | .rounds _ _ _ body => body.hasGroup

/-! ### The length of matches -/

/-- The fewest bytes of a match. There is no such number if the pattern needs a member of an empty
set somewhere. -/
def minBytes? : Pattern → Option Nat
  | .empty | .assert _ => some 0
  | .literal chars => some (byteLength chars)
  | .set chars => chars.minBytes?
  | .group _ body => body.minBytes?
  | .seq first second => do return (← first.minBytes?) + (← second.minBytes?)
  | .alt first second => do return min (← first.minBytes?) (← second.minBytes?)
  | .rounds least _ _ body => body.minBytes?.map (least * ·)

def maxBytes? : Pattern → Option Nat
  | .empty | .assert _ => some 0
  | .literal chars => some (byteLength chars)
  | .set chars => chars.maxBytes?
  | .group _ body => body.maxBytes?
  | .seq first second => do return (← first.maxBytes?) + (← second.maxBytes?)
  | .alt first second => do return max (← first.maxBytes?) (← second.maxBytes?)
  | .rounds _ most _ body => do return (← most) * (← body.maxBytes?)

def isSolid (pattern : Pattern) : Bool := pattern.minBytes?.any (0 < ·)

/-! ### Sequences -/

def parts : Pattern → List Pattern
  | .empty => []
  | .seq first second => first :: second.parts
  | part => [part]

def followedBy : Pattern → Pattern → Pattern
  | .empty, second => second
  | .seq first inner, second => first.followedBy (inner.followedBy second)
  | first, .empty => first
  | .literal chars, .literal others => .literal (chars ++ others)
  | .literal chars, .seq (.literal others) rest => .seq (.literal (chars ++ others)) rest
  | first, second => .seq first second

def sequence (items : List Pattern) : Pattern := items.foldr followedBy .empty

/-! ### Alternatives -/

/-- One member of a set; the only member is a literal. -/
def ofSet (chars : CharSet) : Pattern :=
  match chars.single? with
  | some c => .literal [c]
  | none => .set chars

def branches : Pattern → List Pattern
  | .alt first second => first :: second.branches
  | branch => [branch]

def soleChar? : Pattern → Option Char
  | .literal [c] => some c
  | _ => none

def asSet? : Pattern → Option CharSet
  | .set chars => some chars
  | _ => none

/-- The set of what the branches match, if all are single characters or all are sets. -/
def unionOf? (branches : List Pattern) : Option Pattern :=
  match branches.mapM soleChar? with
  | some chars => some (ofSet (.ofList chars))
  | none => (branches.mapM asSet?).map fun sets => ofSet (sets.foldl CharSet.union .empty)

def common : List Pattern → List Pattern → List Pattern
  | first :: firsts, second :: seconds =>
    if first = second then first :: common firsts seconds else []
  | _, _ => []

/-- The parts that all branches begin with; a branch that is no sequence shares none. -/
def sharedParts : List Pattern → List Pattern
  | [] => []
  | branch :: others =>
    let parts := fun branch : Pattern => match branch with
      | .seq _ _ => branch.parts
      | _ => []
    others.foldl (fun shared other => common shared (parts other)) (parts branch)

def alternatives : List Pattern → Pattern
  | [] => .set .empty
  | [only] => only
  | first :: others => .alt first (alternatives others)

/-- Some branch, the first of them preferred. Each step of `fuel` takes common parts off. -/
def choose : Nat → List Pattern → Pattern
  | 0, choices => alternatives choices
  | fuel + 1, choices =>
    match choices.flatMap branches with
    | [only] => only
    | choices =>
      match unionOf? choices, sharedParts choices with
      | some union, _ => union
      | none, [] => alternatives choices
      | none, shared =>
        let others := choices.map fun branch => sequence (branch.parts.drop shared.length)
        sequence (shared ++ [choose fuel others])

/-- Of two or more branches with parts in common, one has as many parts as come off. -/
def choice (choices : List Pattern) : Pattern :=
  choose ((choices.flatMap (·.parts)).length + 1) choices

/-! ### Repetitions -/

/-- Rounds of `body`. One that takes no bytes is as good as many. -/
def repeated (least : Nat) (most : Option Nat) (eager : Bool) (body : Pattern) : Pattern :=
  let (least, most) :=
    if body.maxBytes? == some 0 then (min least 1, some (min (most.getD 1) 1)) else (least, most)
  if most == some 0 then .empty
  else if least == 1 && most == some 1 then body
  else .rounds least most eager body

end Pattern

end Highlighter
