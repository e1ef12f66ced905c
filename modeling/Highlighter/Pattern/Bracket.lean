import Highlighter.Pattern.Escape

/-!
Sets in brackets: members, ranges, classes by name, inner sets, complements, and sets combined by
operators, which all bind alike and to the left.
-/

set_option autoImplicit false

namespace Highlighter.Pattern

inductive SetOp where
  | inter
  | diff
  | symmDiff
  deriving DecidableEq, Repr

def SetOp.apply : SetOp → CharSet → CharSet → CharSet
  | .inter => CharSet.inter
  | .diff => CharSet.diff
  | .symmDiff => CharSet.symmDiff

/-- A set as far as it has been read, with how deep things nest in it. -/
structure Nested where
  chars : CharSet
  depth : Nat

/-- The members read since the last operator. -/
structure Members where
  chars : CharSet := .empty
  count : Nat := 0
  depth : Nat := 0

namespace Members

def add (members : Members) (chars : CharSet) (depth : Nat) : Members :=
  ⟨members.chars.union chars, members.count + 1, max members.depth depth⟩

/-- Two or more members stand in a set of their own. -/
def nested (members : Members) : Nested :=
  ⟨members.chars, if 1 < members.count then members.depth + 1 else members.depth⟩

end Members

/-- Apply the operator that still waits for its right operand. -/
def operate (mode : Mode) (waiting : Option (Nested × SetOp)) (members : Members) : Nested :=
  match waiting with
  | none => members.nested
  | some (left, op) =>
    ⟨op.apply (mode.foldCase left.chars) (mode.foldCase members.chars),
      max left.depth members.nested.depth + 1⟩

/-- The members of an ASCII class such as `alpha`. -/
def asciiClass? (name : List Char) : Option CharSet :=
  let range := fun first last => CharSet.range first last
  let lower := range 'a' 'z'
  let upper := range 'A' 'Z'
  let digit := range '0' '9'
  let alpha := lower.union upper
  match String.ofList name with
  | "alnum" => some (alpha.union digit)
  | "alpha" => some alpha
  | "ascii" => some (range '\x00' '\x7f')
  | "blank" => some (.ofList ['\t', ' '])
  | "cntrl" => some ((range '\x00' '\x1f').union (.single '\x7f'))
  | "digit" => some digit
  | "graph" => some (range '!' '~')
  | "lower" => some lower
  | "print" => some (range ' ' '~')
  | "punct" => some (((range '!' '/').union (range ':' '@')).union
      ((range '[' '\x60').union (range '\x7b' '~')))
  | "space" => some (.blank .ascii)
  | "upper" => some upper
  | "word" => some (.word .ascii)
  | "xdigit" => some (digit.union ((range 'a' 'f').union (range 'A' 'F')))
  | _ => none

/-- An ASCII class in its own brackets, behind the bracket that opens it. -/
def asciiClassIn? (text : List Char) : Option (Bool × CharSet × List Char) :=
  match text with
  | ':' :: rest =>
    let (isNegated, rest) := match rest with
      | '^' :: rest => (true, rest)
      | rest => (false, rest)
    match rest.dropWhile (· != ':') with
    | ':' :: ']' :: after =>
      (asciiClass? (rest.takeWhile (· != ':'))).map fun set => (isNegated, set, after)
    | _ => none
  | _ => none

/-- One member of a set: a character or an escape. -/
def setAtom (mode : Mode) : List Char → Read (Atom × List Char)
  | [] => throw .unclosedSet
  | '\\' :: rest => escape mode rest
  | c :: rest => return (.char c, rest)

def Atom.asSet (mode : Mode) : Atom → Read CharSet
  | .char c => if mode.alphabet = .ascii && c.toNat ≥ 0x80 then throw .notAscii
    else return .single c
  | .set chars => return chars
  | .anchor _ => throw .badSet

/-- One member of a set, or a range of them. A hyphen before the closing bracket, or before another
hyphen, makes no range. -/
def setMember (mode : Mode) (text : List Char) : Read (CharSet × List Char) := do
  let (first, rest) ← setAtom mode text
  match mode.skip rest with
  | [] => throw .unclosedSet
  | '-' :: after =>
    match mode.skip after with
    | ']' :: _ => return (← first.asSet mode, mode.skip rest)
    | '-' :: _ => return (← first.asSet mode, mode.skip rest)
    | [] => throw .unclosedSet
    | after =>
      let (last, rest) ← setAtom mode after
      match first, last with
      | .char first, .char last =>
        if last < first then throw .badRange
        else if mode.alphabet = .ascii && last.toNat ≥ 0x80 then throw .notAscii
        else return (.range first last, rest)
      | _, _ => throw .badSet
  | rest => return (← first.asSet mode, rest)

/-- Hyphens at the beginning of a set, which stand for themselves. -/
def hyphens (mode : Mode) (members : Members) : Nat → List Char → Members × List Char
  | fuel + 1, '-' :: rest => hyphens mode (members.add (.single '-') 0) fuel (mode.skip rest)
  | _, text => (members, text)

/-- The beginning of a set: a sign for its complement, then hyphens, or a closing bracket, that
stand for themselves. -/
def setStart (mode : Mode) (fuel : Nat) (text : List Char) : Read (Bool × Members × List Char) :=
  let (isNegated, text) := match mode.skip text with
    | '^' :: rest => (true, mode.skip rest)
    | text => (false, text)
  let (members, text) := hyphens mode {} fuel text
  match text with
  | [] => throw .unclosedSet
  | ']' :: rest =>
    if members.count = 0 then return (isNegated, members.add (.single ']') 0, rest)
    else return (isNegated, members, text)
  | _ => return (isNegated, members, text)

/-- The complement is taken last, of the set with its case variants. -/
def finish (mode : Mode) (isNegated : Bool) (chars : CharSet) : Read CharSet :=
  if isNegated then mode.complement (mode.foldCase chars) else return mode.foldCase chars

/-- The rest of a set, inside `outer` others, through its closing bracket. -/
def setBody (mode : Mode) (outer : Nat) (waiting : Option (Nested × SetOp)) (members : Members) :
    Nat → List Char → Read (Nested × List Char)
  | 0, _ => throw .unclosedSet
  | fuel + 1, text =>
    let operator := fun op rest =>
      setBody mode outer (some (operate mode waiting members, op)) {} fuel rest
    match mode.skip text with
    | [] => throw .unclosedSet
    | ']' :: rest => return (operate mode waiting members, rest)
    | '[' :: rest =>
      match asciiClassIn? rest with
      | some (isNegated, chars, rest) => do
        let chars ← finish mode isNegated chars
        setBody mode outer waiting (members.add chars 0) fuel rest
      | none => do
        if maxNesting < outer then throw .tooDeep
        let (isNegated, inner, rest) ← setStart mode fuel rest
        let (inner, rest) ← setBody mode (outer + 1) none inner fuel rest
        let chars ← finish mode isNegated inner.chars
        setBody mode outer waiting (members.add chars (inner.depth + 1)) fuel rest
    | '&' :: '&' :: rest => operator .inter rest
    | '-' :: '-' :: rest => operator .diff rest
    | '~' :: '~' :: rest => operator .symmDiff rest
    | text => do
      let (member, rest) ← setMember mode text
      setBody mode outer waiting (members.add member 0) fuel rest

/-- A set, behind the bracket that opens it. Each step takes a character of the text, so as many steps
as it has characters are enough. -/
def bracketed (mode : Mode) (fuel : Nat) (text : List Char) : Read (Nested × List Char) := do
  let (isNegated, members, rest) ← setStart mode fuel text
  let (body, rest) ← setBody mode 1 none members fuel rest
  return (⟨← finish mode isNegated body.chars, body.depth + 1⟩, rest)

end Highlighter.Pattern
