import Highlighter.Pattern.Bracket
import Highlighter.Pattern.Footprint
import Highlighter.Unicode.Alphabetic

/-!
Reading a pattern from its text. Groups, alternatives, repetitions, bracketed sets, escapes and mode
switches are understood; looking around and referring back to groups are refused, since no match
here depends on more than a place and its two neighbours. So is what nests too deep or would take too
much to match.
-/

set_option autoImplicit false

namespace Highlighter.Pattern

/-- What is left to read, and what has been met on the way. -/
structure Reader where
  rest : List Char
  mode : Mode
  groups : Nat := 0
  names : List (List Char) := []
  deriving Repr

namespace Reader

/-! ### Sets and anchors of one character -/

def anyChar (mode : Mode) : Read CharSet :=
  mode.complement
    (if mode.dotMatchesAll then .empty
     else if mode.anyLineBreak then .ofList ['\r', '\n']
     else .single '\n')

def lineStart (mode : Mode) : Anchor :=
  if !mode.multiLine then .textStart else if mode.anyLineBreak then .anyLineStart else .lineStart

def lineEnd (mode : Mode) : Anchor :=
  if !mode.multiLine then .textEnd else if mode.anyLineBreak then .anyLineEnd else .lineEnd

/-! ### Repetitions -/

def eagerness (mode : Mode) (text : List Char) : Bool × List Char :=
  match text with
  | '?' :: rest => (mode.swapEager, rest)
  | rest => (!mode.swapEager, rest)

def maxCount : Nat := 0xFFFFFFFF

/-- Decimal digits with white space on both sides. -/
def count (text : List Char) : Option Nat × List Char :=
  let text := text.dropWhile Unicode.isBlank
  let digits := text.takeWhile Char.isDigit
  let rest := (text.dropWhile Char.isDigit).dropWhile Unicode.isBlank
  let value := digits.foldl (fun value c => value * 10 + (c.toNat - '0'.toNat)) 0
  (if digits.isEmpty || maxCount < value then none else some value, rest)

def bounds (mode : Mode) (text : List Char) : Read ((Nat × Option Nat) × List Char) := do
  let closed := fun (least : Nat) (most : Option Nat) (rest : List Char) =>
    match rest with
    | '\x7d' :: rest =>
      if most.any (· < least) then throw Fault.badCount
      else return ((least, most), mode.skip rest)
    | _ => throw .badCount
  match count text with
  | (some least, ',' :: rest) =>
    match mode.skip rest with
    | '\x7d' :: _ => closed least none (mode.skip rest)
    | rest =>
      match count rest with
      | (some most, rest) => closed least (some most) rest
      | (none, _) => throw .badCount
  | (some least, rest) => closed least (some least) rest
  | (none, _) => throw .badCount

/-! ### Groups and modes -/

/-- A group's name begins with a letter or a low line. -/
def isNameStart (c : Char) : Bool := c == '_' || Unicode.isAlphabetic c

def isNamePart (c : Char) : Bool :=
  isNameStart c || Unicode.isDecimal c || Unicode.isOtherNumber c || c == '.' || c == '[' ||
    c == ']'

def groupName (text : List Char) : Read (List Char × List Char) :=
  let name := text.takeWhile (· != '>')
  match text.dropWhile (· != '>'), name with
  | _ :: rest, first :: others =>
    if isNameStart first && others.all isNamePart then return (name, rest)
    else throw .badGroupName
  | _, _ => throw .badGroupName

def setSwitch (mode : Mode) (switch : Char) (value : Bool) : Option Mode :=
  match switch with
  | 'i' => some { mode with ignoreCase := value }
  | 's' => some { mode with dotMatchesAll := value }
  | 'm' => some { mode with multiLine := value }
  | 'U' => some { mode with swapEager := value }
  | 'R' => some { mode with anyLineBreak := value }
  | 'x' => some { mode with spaced := value }
  | 'u' => some { mode with alphabet := if value then .unicode else .ascii }
  | _ => none

/-- Switches up to the colon or the parenthesis that ends them. Each may be named once; behind a
hyphen they are switched off, and a hyphen needs a switch behind it. -/
def switches (mode : Mode) (seen : List Char) : List Char → Read (Mode × List Char × List Char)
  | [] => throw .badMode
  | c :: rest =>
    if c == ':' || c == ')' then
      if seen.head? == some '-' then throw .badMode else return (mode, seen, c :: rest)
    else if seen.contains c then throw .badMode
    else if c == '-' then switches mode (c :: seen) rest
    else
      match setSwitch mode c (!seen.contains '-') with
      | none => throw .badMode
      | some mode => switches mode (c :: seen) rest

/-- What an opening parenthesis begins. -/
inductive Opening where
  | group (index : Nat) (reader : Reader)
  | plain (reader : Reader)
  | switched (reader : Reader)

def capturing (reader : Reader) : Opening :=
  .group (reader.groups + 1) { reader with groups := reader.groups + 1 }

def named (reader : Reader) (text : List Char) : Read Opening := do
  let (name, rest) ← groupName text
  if reader.names.contains name then throw .badGroupName
  else return capturing { reader with rest, names := name :: reader.names }

def opening (reader : Reader) (text : List Char) : Read Opening :=
  match reader.mode.skip text with
  | '?' :: '=' :: _ => throw .lookAround
  | '?' :: '!' :: _ => throw .lookAround
  | '?' :: '<' :: '=' :: _ => throw .lookAround
  | '?' :: '<' :: '!' :: _ => throw .lookAround
  | '?' :: 'P' :: '<' :: rest => named reader rest
  | '?' :: '<' :: rest => named reader rest
  | '?' :: rest => do
    let (mode, seen, rest) ← switches reader.mode [] rest
    match rest with
    | ')' :: rest =>
      if seen.isEmpty then throw .nothingToRepeat else return .switched { reader with rest, mode }
    | _ :: rest => return .plain { reader with rest, mode }
    | [] => throw .badMode
  | rest => return capturing { reader with rest }

/-! ### Patterns -/

/-- Something read, with how deep things nest in it. -/
structure Item where
  pattern : Pattern
  depth : Nat := 0
  /-- A switch of modes stands for nothing and cannot be repeated. -/
  isSwitch : Bool := false

/-- How deep things nest in several items together: one step deeper than in any of them. -/
def depthOver (items : List Item) : Nat := (items.map (·.depth)).foldl max 0 + 1

def sequenceOf : List Item → Item
  | [] => { pattern := .empty }
  | [only] => { only with isSwitch := false }
  | items => { pattern := sequence (items.reverse.map (·.pattern)), depth := depthOver items }

/-- A choice between alternatives, the latest of which comes first. -/
def choiceOf : List Item → Item
  | [] => { pattern := .empty }
  | [only] => only
  | branches => { pattern := choice (branches.reverse.map (·.pattern)), depth := depthOver branches }

/-- Read on to the end of a group, inside `outer` others, or of the text. `branches` are the
alternatives already complete, the latest first. -/
def body (outer : Nat) (branches items : List Item) : Nat → Reader → Read (Item × Reader)
  | 0, _ => throw .tooLarge
  | fuel + 1, reader =>
    let mode := reader.mode
    let finished := fun text : List Char =>
      Except.ok (choiceOf (sequenceOf items :: branches), { reader with rest := text })
    let read := fun (item : Item) (rest : List Char) =>
      body outer branches (item :: items) fuel { reader with rest }
    let repetition := fun (least : Nat) (most : Option Nat) (rest : List Char) =>
      match items with
      | last :: items =>
        if last.isSwitch then throw Fault.nothingToRepeat
        else
          let (eager, rest) := eagerness mode rest
          let item : Item := ⟨repeated least most eager last.pattern, last.depth + 1, false⟩
          body outer branches (item :: items) fuel { reader with rest }
      | [] => throw Fault.nothingToRepeat
    match mode.skip reader.rest with
    | [] => finished []
    | ')' :: rest => finished (')' :: rest)
    | '|' :: rest => body outer (sequenceOf items :: branches) [] fuel { reader with rest }
    | '(' :: rest => do
      let inside := fun (wrap : Pattern → Pattern) (inner : Reader) => do
        if maxNesting < outer then throw Fault.tooDeep
        let (item, after) ← body (outer + 1) [] [] fuel inner
        match after.rest with
        | ')' :: rest =>
          let item : Item := ⟨wrap item.pattern, item.depth + 1, false⟩
          body outer branches (item :: items) fuel { after with rest, mode }
        | _ => throw Fault.unclosedGroup
      match ← opening reader rest with
      | .switched reader => body outer branches (⟨.empty, 0, true⟩ :: items) fuel reader
      | .plain inner => inside id inner
      | .group index inner => inside (Pattern.group index) inner
    | '[' :: rest => do
      let (nested, rest) ← bracketed mode fuel rest
      read ⟨ofSet nested.chars, nested.depth, false⟩ rest
    | '?' :: rest => repetition 0 (some 1) rest
    | '*' :: rest => repetition 0 none rest
    | '+' :: rest => repetition 1 none rest
    | '\x7b' :: rest => do
      if items.head?.all (·.isSwitch) then throw .nothingToRepeat
      let ((least, most), rest) ← bounds mode rest
      repetition least most rest
    | '.' :: rest => do read ⟨ofSet (← anyChar mode), 0, false⟩ rest
    | '^' :: rest => read ⟨.assert (lineStart mode), 0, false⟩ rest
    | '$' :: rest => read ⟨.assert (lineEnd mode), 0, false⟩ rest
    | '\\' :: rest => do
      let (atom, rest) ← escape mode rest
      read ⟨atom.pattern mode, 0, false⟩ rest
    | c :: rest => read ⟨literalOf mode c, 0, false⟩ rest

end Reader

/-- The pattern that `text` writes; each step of reading consumes a character. -/
def read (text : List Char) (ignoreCase : Bool) : Except Fault Pattern := do
  let reader : Reader := { rest := text, mode := { ignoreCase } }
  let (item, reader) ← Reader.body 0 [] [] (text.length + 1) reader
  if !reader.rest.isEmpty then throw .unopenedGroup
  if maxNesting < item.depth then throw .tooDeep
  if item.pattern.isTooLarge then throw .tooLarge
  return item.pattern

end Highlighter.Pattern
