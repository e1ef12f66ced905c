import Highlighter.Unicode.Blank
import Highlighter.Unicode.CaseFold
import Highlighter.Unicode.Numeral
import Highlighter.Unicode.Utf8
import Highlighter.Unicode.Word

/-!
Sets of characters, kept as ranges of scalar values in increasing order, with a gap between any two.
So one set is written in one way, and equal sets are the same.
-/

set_option autoImplicit false

namespace Highlighter

/-- Whether properties and case are those of all scripts or of ASCII alone. -/
inductive Alphabet where
  | unicode
  | ascii
  deriving DecidableEq, Repr

namespace Alphabet

def isWord : Alphabet → Char → Bool
  | .unicode, c => Unicode.isWord c
  | .ascii, c => Unicode.isAsciiWord c

def foldRuns : Alphabet → List Unicode.FoldRun
  | .unicode => Unicode.foldRuns
  | .ascii => Unicode.asciiFoldRuns

end Alphabet

structure CharSet where
  /-- First and last member of each range. -/
  ranges : List (Nat × Nat) := []
  deriving DecidableEq, Repr

namespace CharSet

/-- No scalar value lies between these two. -/
def beforeGap : Nat := 0xd7ff

def afterGap : Nat := 0xe000

def succ (code : Nat) : Nat := if code == beforeGap then afterGap else code + 1

def pred (code : Nat) : Nat := if code == afterGap then beforeGap else code - 1

def covers (code : Nat) : List (Nat × Nat) → Bool
  | [] => false
  | (first, last) :: ranges => first ≤ code && (code ≤ last || covers code ranges)

def contains (set : CharSet) (c : Char) : Bool := covers c.toNat set.ranges

/-- Put one more range among increasing ones, joined with those that it meets. -/
def insertRange (first last : Nat) : List (Nat × Nat) → List (Nat × Nat)
  | [] => [(first, last)]
  | (other, stop) :: ranges =>
    if succ last < other then (first, last) :: (other, stop) :: ranges
    else if succ stop < first then (other, stop) :: insertRange first last ranges
    else insertRange (min first other) (max last stop) ranges

def empty : CharSet := {}

def ofRanges (ranges : List (Nat × Nat)) : CharSet :=
  ⟨ranges.foldl (fun ranges (first, last) => insertRange first last ranges) []⟩

def range (first last : Char) : CharSet := ⟨[(first.toNat, last.toNat)]⟩

def single (c : Char) : CharSet := range c c

def ofList (chars : List Char) : CharSet := ofRanges (chars.map fun c => (c.toNat, c.toNat))

def union (left right : CharSet) : CharSet :=
  ⟨right.ranges.foldl (fun ranges (first, last) => insertRange first last ranges) left.ranges⟩

/-- What increasing ranges leave out from `start` on. -/
def gaps (start : Nat) : List (Nat × Nat) → List (Nat × Nat)
  | [] => if start < Unicode.codeBound then [(start, Unicode.codeBound - 1)] else []
  | (first, last) :: ranges =>
    if start < first then (start, pred first) :: gaps (succ last) ranges
    else gaps (succ last) ranges

def compl (set : CharSet) : CharSet := ⟨gaps 0 set.ranges⟩

def inter (left right : CharSet) : CharSet := (left.compl.union right.compl).compl

def diff (left right : CharSet) : CharSet := left.inter right.compl

def symmDiff (left right : CharSet) : CharSet := (left.diff right).union (right.diff left)

def word : Alphabet → CharSet
  | .unicode => ⟨Unicode.wordRanges.toList⟩
  | .ascii => ⟨Unicode.asciiWordRanges.toList⟩

def digit : Alphabet → CharSet
  | .unicode => ⟨Unicode.decimalRanges.toList⟩
  | .ascii => range '0' '9'

def blank : Alphabet → CharSet
  | .unicode => ⟨Unicode.blankRanges.toList⟩
  | .ascii => ⟨Unicode.asciiBlankRanges.toList⟩

def meets (set : CharSet) (first last : Nat) : Bool :=
  set.ranges.any fun (least, most) => first ≤ most && least ≤ last

/-- The foldings of all runs that may touch a member. -/
def foldingsNear (set : CharSet) (alphabet : Alphabet) : List (Nat × Nat) :=
  (alphabet.foldRuns.filter fun run => set.meets run.first run.last ||
    set.meets run.target (run.target + (run.last - run.first))).flatMap (·.foldings)

/-- Everything that differs from a member in case alone. -/
def caseless (alphabet : Alphabet) (set : CharSet) : CharSet :=
  let folded := ofRanges <| (set.foldingsNear alphabet).filterMap fun (code, target) =>
    if covers code set.ranges || covers target set.ranges then some (target, target) else none
  let others := (folded.foldingsNear alphabet).filterMap fun (code, target) =>
    if covers target folded.ranges then some (code, code) else none
  (set.union folded).union (ofRanges others)

def single? (set : CharSet) : Option Char :=
  match set.ranges with
  | [(first, last)] => if first == last then some (Char.ofNat first) else none
  | _ => none

def minBytes? (set : CharSet) : Option Nat := set.ranges.head?.map fun (first, _) =>
  Unicode.byteCount first

def maxBytes? (set : CharSet) : Option Nat := set.ranges.getLast?.map fun (_, last) =>
  Unicode.byteCount last

def isAscii (set : CharSet) : Bool := set.ranges.getLast?.all fun (_, last) => last < 0x80

end CharSet

end Highlighter
