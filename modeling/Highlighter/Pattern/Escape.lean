import Highlighter.Pattern.Basic
import Highlighter.Pattern.Mode

/-!
What a backslash and the characters behind it stand for: a character, a set of characters or an
anchor.
-/

set_option autoImplicit false

namespace Highlighter.Pattern

/-- Characters that stand for themselves only behind a backslash. -/
def isMeta (c : Char) : Bool :=
  ['\\', '.', '+', '*', '?', '(', ')', '|', '[', ']', '\x7b', '\x7d', '^', '$', '#', '&', '-',
    '~'].contains c

/-- Every ASCII character that is neither a letter, a digit nor an angle bracket may be escaped. -/
def isEscapable (c : Char) : Bool :=
  isMeta c || (c.toNat < 0x80 && !c.isAlphanum && c != '<' && c != '>')

/-- What one character or one escape denotes. -/
inductive Atom where
  | char (c : Char)
  | set (chars : CharSet)
  | anchor (condition : Anchor)
  deriving DecidableEq, Repr

def hexValue? (c : Char) : Option Nat :=
  if c.isDigit then some (c.toNat - '0'.toNat)
  else if 'a' ≤ c && c ≤ 'f' then some (c.toNat - 'a'.toNat + 10)
  else if 'A' ≤ c && c ≤ 'F' then some (c.toNat - 'A'.toNat + 10)
  else none

def hexCode? (digits : List Char) : Option Nat :=
  digits.foldlM (fun code c => (hexValue? c).map (code * 16 + ·)) 0

def charOfHex (digits : List Char) : Read Char :=
  match hexCode? digits with
  | none => throw .badCode
  | some code => if code.isValidChar then return Char.ofNat code else throw .badCode

def digitsOf (mode : Mode) : Nat → List Char → Read (List Char × List Char)
  | 0, text => return ([], text)
  | count + 1, text =>
    match mode.skip text with
    | [] => throw .badCode
    | c :: rest => do
      let (digits, rest) ← digitsOf mode count rest
      return (c :: digits, rest)

/-- All characters up to the closing brace, but those that are skipped. -/
def bracedDigits (mode : Mode) (inComment : Bool) : List Char → Read (List Char × List Char)
  | [] => throw .badCode
  | c :: rest =>
    if inComment then bracedDigits mode (c != '\n') rest
    else if mode.spaced && Unicode.isBlank c then bracedDigits mode false rest
    else if mode.spaced && c == '#' then bracedDigits mode true rest
    else if c == '\x7d' then return ([], rest)
    else do
      let (digits, rest) ← bracedDigits mode false rest
      return (c :: digits, rest)

/-- A scalar value in hexadecimal: so many digits, or any number of them in braces. Two digits name a
byte where the alphabet is that of ASCII, and a byte beyond it is no text. -/
def hex (mode : Mode) (count : Nat) (text : List Char) : Read (Atom × List Char) := do
  match mode.skip text with
  | '\x7b' :: rest =>
    let (digits, rest) ← bracedDigits mode false rest
    if digits.isEmpty then throw .badCode else return (.char (← charOfHex digits), rest)
  | text =>
    let (digits, rest) ← digitsOf mode count text
    let c ← charOfHex digits
    if mode.alphabet = .ascii && count == 2 && 0x80 ≤ c.toNat then throw .notAscii
    else return (.char c, rest)

/-- What follows the backslash of a word edge: a name in braces makes it one-sided. Anything in
braces that does not begin like a name is left to be read as a count. -/
def wordEdge (mode : Mode) (text : List Char) : Read (Atom × List Char) :=
  let isNameChar := fun c : Char => c.isAlpha || c == '-'
  match text with
  | '\x7b' :: rest =>
    match mode.skip rest with
    | [] => throw .badWordEdge
    | c :: _ =>
      if isNameChar c then
        let name := (mode.skip rest).takeWhile isNameChar
        match (mode.skip rest).dropWhile isNameChar with
        | '\x7d' :: rest =>
          match String.ofList name with
          | "start" => return (.anchor (.wordStart mode.alphabet), rest)
          | "end" => return (.anchor (.wordEnd mode.alphabet), rest)
          | "start-half" => return (.anchor (.wordStartHalf mode.alphabet), rest)
          | "end-half" => return (.anchor (.wordEndHalf mode.alphabet), rest)
          | _ => throw .badWordEdge
        | _ => throw .badWordEdge
      else return (.anchor (.wordEdge mode.alphabet), text)
  | text => return (.anchor (.wordEdge mode.alphabet), text)

def escape (mode : Mode) : List Char → Read (Atom × List Char)
  | [] => throw .badEscape
  | c :: rest =>
    match c with
    | 'x' => hex mode 2 rest
    | 'u' => hex mode 4 rest
    | 'U' => hex mode 8 rest
    | 'p' | 'P' => throw .unknownProperty
    | 'd' => return (.set (.digit mode.alphabet), rest)
    | 's' => return (.set (.blank mode.alphabet), rest)
    | 'w' => return (.set (.word mode.alphabet), rest)
    | 'D' => return (.set (← mode.complement (.digit mode.alphabet)), rest)
    | 'S' => return (.set (← mode.complement (.blank mode.alphabet)), rest)
    | 'W' => return (.set (← mode.complement (.word mode.alphabet)), rest)
    | 'a' => return (.char '\x07', rest)
    | 'f' => return (.char '\x0c', rest)
    | 't' => return (.char '\t', rest)
    | 'n' => return (.char '\n', rest)
    | 'r' => return (.char '\r', rest)
    | 'v' => return (.char '\x0b', rest)
    | 'A' => return (.anchor .textStart, rest)
    | 'z' => return (.anchor .textEnd, rest)
    | 'b' => wordEdge mode rest
    | 'B' => return (.anchor (.noWordEdge mode.alphabet), rest)
    | '<' => return (.anchor (.wordStart mode.alphabet), rest)
    | '>' => return (.anchor (.wordEnd mode.alphabet), rest)
    | c =>
      if c.isDigit then throw .backReference
      else if isEscapable c then return (.char c, rest)
      else throw .badEscape

def literalOf (mode : Mode) (c : Char) : Pattern :=
  if mode.ignoreCase then ofSet (mode.foldCase (.single c)) else .literal [c]

def Atom.pattern (mode : Mode) : Atom → Pattern
  | .char c => literalOf mode c
  | .set chars => ofSet chars
  | .anchor condition => .assert condition

end Highlighter.Pattern
