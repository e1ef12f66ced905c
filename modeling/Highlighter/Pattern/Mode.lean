import Highlighter.Pattern.CharSet

/-!
What holds while a pattern is read: switches that change what its characters mean, and the faults that
end the reading.
-/

set_option autoImplicit false

namespace Highlighter.Pattern

/-- Why a text is no pattern. -/
inductive Fault where
  | unclosedGroup
  | unopenedGroup
  | badGroupName
  | lookAround
  | backReference
  | badMode
  | nothingToRepeat
  | badCount
  /-- Groups, sets and repetitions stand in one another too often. -/
  | tooDeep
  /-- What the pattern stands for, with all repetitions written out, takes too much. -/
  | tooLarge
  | unclosedSet
  | badSet
  | badRange
  | badEscape
  | badCode
  | unknownProperty
  | badWordEdge
  /-- Without the Unicode alphabet, only sets of ASCII characters are known. -/
  | notAscii
  deriving DecidableEq, Repr

/-- Switches that hold from where they are set to the end of the group. -/
structure Mode where
  ignoreCase : Bool := false
  dotMatchesAll : Bool := false
  multiLine : Bool := false
  swapEager : Bool := false
  anyLineBreak : Bool := false
  /-- White space and comments in the pattern are skipped. -/
  spaced : Bool := false
  alphabet : Alphabet := .unicode
  deriving DecidableEq, Repr

abbrev Read (β : Type) := Except Fault β

/-- Things that nest stand at most so deep in one another. -/
def maxNesting : Nat := 250

namespace Mode

/-- Drop white space and comments, which run to the end of their line. -/
def dropSpace : Bool → List Char → List Char
  | _, [] => []
  | true, c :: rest => dropSpace (c != '\n') rest
  | false, c :: rest =>
    if Unicode.isBlank c then dropSpace false rest
    else if c == '#' then dropSpace true rest
    else c :: rest

def skip (mode : Mode) (text : List Char) : List Char :=
  if mode.spaced then dropSpace false text else text

def foldCase (mode : Mode) (set : CharSet) : CharSet :=
  if mode.ignoreCase then set.caseless mode.alphabet else set

/-- A property outside ASCII has no place in a set of ASCII characters. -/
def complement (mode : Mode) (set : CharSet) : Read CharSet :=
  if mode.alphabet = .ascii then throw .notAscii else return set.compl

end Mode

end Highlighter.Pattern
