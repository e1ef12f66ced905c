import Highlighter.Pattern.Basic
import Highlighter.Pattern.Ways

/-!
How patterns match. Of all ways to match, the preferred one is the first in the order in which a
pattern lists its choices: the left branch of an alternative before the right one, another round of an
eager repetition before leaving it, leaving a lazy one before another round. `run` lists the ways in
that order.

Where ways meet, behind alternatives and before each round of a repetition, there is a point of the
pattern, and a way ends where an earlier one has come to the same point at the same place. What follows
from there has been tried already, or is being tried, so nothing is lost but ways that go round without
taking anything, and no point is passed twice at one place. This holds for a whole search, too: its
time is bounded by the number of points times that of places.
-/

set_option autoImplicit false

namespace Highlighter

/-- How far a match has come, and where its context group ended last. -/
structure Reach where
  place : Place
  context : Option Place := none
  deriving DecidableEq, Repr

abbrev Trial (α : Type) := Reach → Ways α

namespace Trial

variable {α : Type}

/-- Ways that go on in the same way meet at `point`. -/
def meet (point : Nat) (next : Trial α) : Trial α := fun reach =>
  .meet point reach.place.offset fun _ => next reach

def take : List Char → Trial α → Trial α
  | [], next, reach => next reach
  | c :: chars, next, reach =>
    match reach.place.rest with
    | [] => .fail
    | d :: rest =>
      if d = c then take chars next { reach with place := reach.place.past d rest } else .fail

/-- `count` copies of a pattern, the points of each behind those of the one before. -/
def copies (body : Nat → Trial α → Trial α) (width base : Nat) : Nat → Trial α → Trial α
  | 0, next => next
  | count + 1, next => body base (copies body width (base + width) count next)

/-- At most `count` copies, each tried only behind the one before it. -/
def atMost (body : Nat → Trial α → Trial α) (eager : Bool) (width base : Nat) :
    Nat → Trial α → Trial α
  | 0, next => next
  | count + 1, next => fun reach =>
    .either eager (fun _ => body base (atMost body eager width (base + width) count next) reach)
      fun _ => next reach

/-- Turns of a loop that begins at `point`. No two turns begin at one place, so there are no more of
them than places left, and what follows the last is marked. -/
def loop (point : Nat) (turn : Trial α → Trial α) : List Char → Trial α
  | [] => meet point (turn (meet point fun _ => .fail))
  | _ :: rest => meet point (turn (loop point turn rest))

/-- Any number of rounds that take something: before each there is the choice to leave. -/
def any (body : Trial α → Trial α) (eager : Bool) (point : Nat) (next : Trial α) : Trial α :=
  fun reach =>
    loop point (fun again reach => .either eager (fun _ => body again reach) fun _ => next reach)
      reach.place.rest reach

/-- One or more rounds: behind each there is the choice to leave. -/
def many (body : Trial α → Trial α) (eager : Bool) (point : Nat) (next : Trial α) : Trial α :=
  fun reach =>
    loop point
      (fun again => body fun reach => .either eager (fun _ => again reach) fun _ => next reach)
      reach.place.rest reach

end Trial

namespace Pattern

open Trial

variable {α : Type}

def points : Pattern → Nat
  | .empty | .literal _ | .set _ | .assert _ => 0
  | .group _ body => body.points
  | .seq first second => first.points + second.points
  | .alt first second => first.points + second.points + 1
  | .rounds least most _ body => max least (most.getD 1) * body.points + 2

/-- The ways through a pattern, behind each those of `next`. The points of the pattern are numbered
from `base` on. -/
def run : Pattern → Nat → Trial α → Trial α
  | .empty, _, next => next
  | .literal chars, _, next => take chars next
  | .set chars, _, next => fun reach =>
    match reach.place.rest with
    | [] => .fail
    | c :: rest =>
      if chars.contains c then next { reach with place := reach.place.past c rest } else .fail
  | .assert condition, _, next => fun reach =>
    if condition.holds reach.place then next reach else .fail
  | .group index body, base, next =>
    body.run base fun reach =>
      next (if index = 1 then { reach with context := some reach.place } else reach)
  | .seq first second, base, next => first.run base (second.run (base + first.points) next)
  | .alt first second, base, next => fun reach =>
    (first.run (base + 1) (meet base next) reach).orElse fun _ =>
      second.run (base + 1 + first.points) (meet base next) reach
  | .rounds least most eager body, base, next =>
    let width := body.points
    let inner := base + 2
    match most with
    | some most =>
      if most = least then copies body.run width inner least next
      else
        copies body.run width inner least
          (atMost body.run eager width (inner + least * width) (most - least) (meet base next))
    | none =>
      if least = 0 then
        if body.isSolid then any (body.run inner) eager base next
        else fun reach =>
          .either eager (fun _ => many (body.run inner) eager (base + 1) (meet base next) reach)
            fun _ => meet base next reach
      else
        copies body.run width inner (least - 1)
          (many (body.run (inner + (least - 1) * width)) eager base next)

def ways (pattern : Pattern) (place : Place) : Ways Reach := pattern.run 0 .answer { place }

def unmarked (pattern : Pattern) (place : Place) : Marks :=
  { first := place.offset, width := pattern.points }

/-- The preferred match that begins at `place`. -/
def matchAt (pattern : Pattern) (place : Place) : Option Reach :=
  ((pattern.ways place).explore (pattern.unmarked place)).1

/-- The first place from this one on where a match begins, and the preferred match there. Marks are
kept from place to place: what has led nowhere will not lead anywhere. -/
def seek (pattern : Pattern) (offset : Nat) (before : Option Char) :
    List Char → Marks → Option (Place × Reach)
  | [], marks =>
    let place : Place := ⟨offset, before, []⟩
    ((pattern.ways place).explore marks).1.map (place, ·)
  | c :: rest, marks =>
    let place : Place := ⟨offset, before, c :: rest⟩
    match (pattern.ways place).explore marks with
    | (some reach, _) => some (place, reach)
    | (none, marks) => pattern.seek (offset + c.utf8Size) (some c) rest marks

def search (pattern : Pattern) (place : Place) : Option (Place × Reach) :=
  pattern.seek place.offset place.before place.rest (pattern.unmarked place)

end Pattern

end Highlighter
