import Highlighter.Pattern.Basic
import Std.Data.TreeMap

/-!
How much a pattern takes. A pattern stands for an automaton that reads bytes, and for another one that
reads them backwards; each has states, and some states take further bytes for where they lead. A
pattern is too large if one of the two takes more than a fixed number of bytes. All repetitions count
as written out.

A set with members outside ASCII is written by many sequences of bytes, which share states. To find a
state that can be shared, a table with a fixed number of slots holds the states made last; where two
fall into one slot the later one drives out the earlier, so how much is shared depends on the numbers
of the states themselves.
-/

set_option autoImplicit false

namespace Highlighter

inductive Direction where
  | forward
  | backward
  deriving DecidableEq, Repr

/-- The automaton so far: its states, and the bytes that they take beside their fixed size. -/
structure Footprint where
  states : Nat := 0
  extra : Nat := 0
  deriving DecidableEq, Repr

namespace Footprint

def bytesOfState : Nat := 32

/-- A range of bytes and the state that it leads to. -/
def bytesOfBranch : Nat := 8

/-- A state that is reached without a byte. -/
def bytesOfJump : Nat := 4

def maxBytes : Nat := 10 * 1024 * 1024

def bytes (size : Footprint) : Nat := bytesOfState * size.states + size.extra

def isOver (size : Footprint) : Bool := maxBytes < size.bytes

def add (size : Footprint) (states extra : Nat) : Footprint :=
  ⟨size.states + states, size.extra + extra⟩

/-- The footprint behind a branch of a choice that has `rank` branches before this one. From the second
one on a state leads to the branches, and another one is where they meet. -/
def join (rank : Nat) (size : Footprint) : Footprint :=
  match rank with
  | 0 => size
  | 1 => size.add 2 (2 * bytesOfJump)
  | _ => size.add 0 bytesOfJump

/-- So many times the same, unless it is too much before. -/
def times (step : Footprint → Footprint) : Nat → Footprint → Footprint
  | 0, size => size
  | count + 1, size => if size.isOver then size else times step count (step size)

/-! ### Sets -/

/-- A footprint with the states that may be shared: in each slot a key, and the state made for it. -/
structure Sharing where
  size : Footprint
  slots : Std.TreeMap Nat (List Nat × Nat) := {}

namespace Sharing

def hashSeed : UInt64 := 14695981039346656037

def hashFactor : UInt64 := 1099511628211

def hash (key : List Nat) : UInt64 :=
  key.foldl (fun hash part => (hash ^^^ part.toUInt64) * hashFactor) hashSeed

def forwardSlots : Nat := 10000

def backwardSlots : Nat := 1000

/-- The state for a key: the one that its slot holds, or else a new one. -/
def state (sharing : Sharing) (slotCount : Nat) (key : List Nat) (extra : Nat) : Nat × Sharing :=
  let slot := (hash key).toNat % slotCount
  let fresh := (sharing.size.states,
    { size := sharing.size.add 1 extra, slots := sharing.slots.insert slot (key, sharing.size.states) })
  match sharing.slots[slot]? with
  | some (other, state) => if other = key then (state, sharing) else fresh
  | none => fresh

/-- The state from which these sequences, which have at most so many bytes and are in increasing
order, lead to `target`. What they have in common at their end is shared. -/
def tree (target : Nat) : Nat → List Unicode.ByteRanges → Sharing → Nat × Sharing
  | 0, _, sharing => (target, sharing)
  | length + 1, sequences, sharing =>
    if sequences.all (·.isEmpty) then (target, sharing)
    else
      let (key, sharing) := (sequences.splitBy (·.head? == ·.head?)).foldl
        (fun (key, sharing) group =>
          let (next, sharing) := tree target length (group.map (·.drop 1)) sharing
          match group.head?.bind (·.head?) with
          | some (first, last) => (key ++ [first, last, next], sharing)
          | none => (key, sharing))
        ([], sharing)
      sharing.state forwardSlots key (bytesOfBranch * (key.length / 3))

/-- The states that lead backwards through a sequence to `target`, from its last byte on. -/
def chain (target : Nat) : Unicode.ByteRanges → Sharing → Sharing
  | [], sharing => sharing
  | (first, last) :: rest, sharing =>
    let (next, sharing) := sharing.state backwardSlots [target, first, last] 0
    chain next rest sharing

end Sharing

def addSet (direction : Direction) (chars : CharSet) (size : Footprint) : Footprint :=
  if chars.isAscii then size.add 2 (bytesOfBranch * chars.ranges.length)
  else
    let sequences := chars.ranges.flatMap fun (first, last) => Unicode.byteRanges first last
    match direction with
    | .forward => (Sharing.tree size.states 4 sequences { size := size.add 1 0 }).2.size
    | .backward =>
      let whole : Sharing := { size := size.add 2 (bytesOfJump * sequences.length) }
      (sequences.foldl (fun sharing sequence => sharing.chain (size.states + 1) sequence) whole).size

/-! ### Alternatives that are literals -/

def bytesOf (direction : Direction) (chars : List Char) : List UInt8 :=
  let bytes := (String.ofList chars).toUTF8.toList
  match direction with
  | .forward => bytes
  | .backward => bytes.reverse

/-- What is added at a node of a tree of words, word by word. A word that ends here closes the
branches so far; after it branches begin anew, so that the order of preference is kept. -/
def chunks : List (List UInt8) → List (List (List UInt8))
  | [] => [[]]
  | [] :: words => [] :: chunks words
  | word :: words =>
    match chunks words with
    | [] => [[word]]
    | chunk :: others => (word :: chunk) :: others

/-- A tree of words of at most so many bytes. Words that end where nothing has branched yet close no
more than one chunk. -/
def addWords : Nat → List (List UInt8) → Footprint → Footprint
  | 0, _, size => size
  | length + 1, words, size =>
    if words.all (·.isEmpty) then size
    else
      let closing := words.takeWhile (·.isEmpty)
      let all := (if closing.isEmpty then [] else [[]]) ++ chunks (words.drop closing.length)
      let size := all.foldl (fun size chunk =>
        let heads := (chunk.filterMap (·.head?)).eraseDups
        let size := heads.foldl (fun size head =>
          addWords length ((chunk.filter (·.head? == some head)).map (·.drop 1)) size) size
        match heads.length with
        | 0 => size
        | 1 => size.add 1 0
        | count => size.add 1 (bytesOfBranch * count)) size
      size.add 1 (bytesOfJump * ((all.filter (!·.isEmpty)).length + (all.length - 1)))

end Footprint

namespace Pattern

open Footprint

def chars? : Pattern → Option (List Char)
  | .literal chars => some chars
  | _ => none

def words? (direction : Direction) (pattern : Pattern) : Option (List (List UInt8)) :=
  (pattern.branches.mapM chars?).map fun words => words.map (bytesOf direction)

/-- The footprint with the automaton of one more pattern, which comes behind `rank` other branches
of one choice. -/
def footprint (direction : Direction) : Pattern → Nat → Footprint → Footprint
  | .empty, rank, size => (size.add 1 0).join rank
  | .assert _, rank, size => (size.add 1 0).join rank
  | .literal chars, rank, size => (size.add (byteLength chars) 0).join rank
  | .set chars, rank, size => (if size.isOver then size else addSet direction chars size).join rank
  | .group _ body, rank, size =>
    (match direction with
    | .forward => (body.footprint direction 0 (size.add 1 0)).add 1 0
    | .backward => body.footprint direction 0 size).join rank
  | .seq first second, rank, size =>
    (match direction with
    | .forward => second.footprint direction 0 (first.footprint direction 0 size)
    | .backward => first.footprint direction 0 (second.footprint direction 0 size)).join rank
  | .alt first second, rank, size =>
    match rank, (Pattern.alt first second).words? direction with
    | 0, some words => addWords ((words.map List.length).foldl max 0 + 1) words (size.add 1 0)
    | rank, _ =>
      second.footprint direction (rank + 1) ((first.footprint direction 0 size).join rank)
  | .rounds least most _ body, rank, size =>
    let once := body.footprint direction 0
    let perhaps := fun size : Footprint => once (size.add 1 (2 * bytesOfJump))
    (match most with
    | some most =>
      if most = least then times once least size
      else if least = 0 ∧ most = 1 then (perhaps size).add 1 0
      else
        let before := if least = 0 then size.add 1 0 else times once least size
        times perhaps (most - least) (before.add 1 0)
    | none =>
      if least = 0 then if body.isSolid then perhaps size else (once size).add 3 (4 * bytesOfJump)
      else (times once least size).add 1 (2 * bytesOfJump)).join rank

def beginsAtStart : Pattern → Bool
  | .empty | .literal _ | .set _ => false
  | .assert condition => condition = .textStart
  | .group _ body => body.beginsAtStart
  | .seq first second =>
    first.beginsAtStart || (first.maxBytes? == some 0 && second.beginsAtStart)
  | .alt first second => first.beginsAtStart && second.beginsAtStart
  | .rounds least _ _ body => 0 < least && body.beginsAtStart

def endsAtEnd : Pattern → Bool
  | .empty | .literal _ | .set _ => false
  | .assert condition => condition = .textEnd
  | .group _ body => body.endsAtEnd
  | .seq first second => second.endsAtEnd || (first.endsAtEnd && second.maxBytes? == some 0)
  | .alt first second => first.endsAtEnd && second.endsAtEnd
  | .rounds least _ _ body => 0 < least && body.endsAtEnd

/-- In front, a loop over any bytes that looks for the first match, unless there is only one place
where a match may begin. -/
def front (isFixed : Bool) : Footprint :=
  if isFixed then ⟨1, 0⟩ else ⟨3, bytesOfBranch + 2 * bytesOfJump⟩

/-- The whole automaton, with its front, the state in which a match is found and, when reading
forward, two states that note both ends of a match. -/
def wholeFootprint (pattern : Pattern) : Direction → Footprint
  | .forward => (pattern.footprint .forward 0 ((front pattern.beginsAtStart).add 1 0)).add 2 0
  | .backward => (pattern.footprint .backward 0 (front pattern.endsAtEnd)).add 1 0

/-- No fewer bytes than the pattern takes, found without building anything: a byte of a literal takes
at most two states with a branch in each, and a range of characters at most eleven sequences. -/
def byteBound : Pattern → Nat
  | .empty | .assert _ => 64
  | .literal chars => 96 * byteLength chars + 64
  | .set chars => 2048 * chars.ranges.length + 192
  | .group _ body => body.byteBound + 64
  | .seq first second => first.byteBound + second.byteBound
  | .alt first second => first.byteBound + second.byteBound + 96
  | .rounds least most _ body => max least (most.getD 1) * (body.byteBound + 64) + 192

def isTooLarge (pattern : Pattern) : Bool :=
  maxBytes < pattern.byteBound + 256 &&
    ((pattern.wholeFootprint .forward).isOver || (pattern.wholeFootprint .backward).isOver)

end Pattern

end Highlighter
