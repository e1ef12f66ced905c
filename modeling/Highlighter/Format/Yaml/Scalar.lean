import Highlighter.Number.Double

/-!
YAML scalars for texts: in which style a text is written so that it is read back as that text, and
how it is written in each style.
-/

set_option autoImplicit false

namespace Highlighter.Yaml

/-! ### Reading a plain scalar -/

inductive Resolved where
  | null
  | boolean (value : Bool)
  | integer
  | float
  | text
  deriving DecidableEq, Repr

def isNullWord (text : List Char) : Bool :=
  ["null", "Null", "NULL", "~"].any (·.toList == text)

def boolWord? (text : List Char) : Option Bool :=
  if ["true", "True", "TRUE"].any (·.toList == text) then some true
  else if ["false", "False", "FALSE"].any (·.toList == text) then some false
  else none

def isSign (c : Char) : Bool := c == '+' || c == '-'

def withoutSign : List Char → List Char
  | [] => []
  | c :: rest => if isSign c then rest else c :: rest

def withoutPlus : List Char → List Char
  | '+' :: rest => rest
  | text => text

/-- Several digits of which the first is a zero are no number. -/
def isPaddedNumber (text : List Char) : Bool :=
  match withoutSign text with
  | '0' :: c :: rest => (c :: rest).all Char.isDigit
  | _ => false

/-- Integers have at most 128 bits, one of them for the sign of a negative one. -/
def fits (isNegative : Bool) (magnitude : Nat) : Bool :=
  if isNegative then magnitude ≤ 1 <<< 127 else magnitude < 1 <<< 128

def isIntegerOf (base : Nat) (isNegative : Bool) (digits : List Char) : Bool :=
  (natOfDigits? base digits).any (fits isNegative)

def isBased (isNegative : Bool) : List Char → Bool
  | '0' :: 'x' :: digits => isIntegerOf 16 isNegative digits
  | '0' :: 'o' :: digits => isIntegerOf 8 isNegative digits
  | '0' :: 'b' :: digits => isIntegerOf 2 isNegative digits
  | _ => false

def isInteger (text : List Char) : Bool :=
  match text with
  | '-' :: rest => isBased true rest || (!isPaddedNumber text && isIntegerOf 10 true rest)
  | text =>
    let unsigned := withoutPlus text
    isBased false unsigned || (!isPaddedNumber text && isIntegerOf 10 false unsigned)

def isInfinity (text : List Char) : Bool := [".inf", ".Inf", ".INF"].any (·.toList == text)

def isNotANumber (text : List Char) : Bool := [".nan", ".NaN", ".NAN"].any (·.toList == text)

def isFinite (number : Decimal) : Bool :=
  match Double.ofDecimal number with
  | .finite .. => true
  | _ => false

def isFloat (text : List Char) : Bool :=
  let finite := fun unsigned => (Decimal.read? unsigned).any isFinite
  match text with
  | '-' :: rest => isInfinity rest || finite rest
  | '+' :: rest => isInfinity rest || finite rest
  | text => isInfinity text || isNotANumber text || finite text

/-- What `text` is read as when it stands plain. -/
def resolve (text : List Char) : Resolved :=
  if text.isEmpty || isNullWord text then .null
  else
    match boolWord? text with
    | some value => .boolean value
    | none =>
      if isInteger text then .integer
      else if !isPaddedNumber text && isFloat text then .float
      else .text

/-! ### Styles -/

inductive Style where
  | plain
  | single
  | double
  | literal
  deriving DecidableEq, Repr

/-- The style that is wished for: quotes for what would not be read back as text, a block for several
lines, and else no quotes. -/
def wished (text : List Char) : Style :=
  if text.contains '\n' then .literal
  else if resolve text != .text || isPaddedNumber text then .single
  else .plain

def isBreak (c : Char) : Bool :=
  c == '\n' || c == '\r' || c == '\x85' || c == '\u2028' || c == '\u2029'

def isBlankOrBreak (c : Char) : Bool := c == ' ' || c == '\t' || c == '\x00' || isBreak c

/-- Characters that may stand as they are; all others need an escape. -/
def isPrintable (c : Char) : Bool :=
  let code := c.toNat
  code == 0x0a || (0x20 ≤ code && code ≤ 0x7e) || (0xa0 ≤ code && code ≤ 0xfffd && code != 0xfeff) ||
    0x10000 ≤ code

/-- Whether `c` would be taken for an indicator between these neighbours. The end of the text counts
as a blank. -/
def isIndicator (before : Option Char) (c : Char) (after : Option Char) : Bool :=
  let blankAfter := after.all isBlankOrBreak
  match before with
  | none =>
    ['#', ',', '[', ']', '\x7b', '\x7d', '&', '*', '!', '|', '>', '\'', '"', '%', '@',
      '\x60'].contains c || (['?', ':', '-'].contains c && blankAfter)
  | some before => (c == ':' && blankAfter) || (c == '#' && isBlankOrBreak before)

def hasIndicator (before : Option Char) : List Char → Bool
  | [] => false
  | c :: rest => isIndicator before c rest.head? || hasIndicator (some c) rest

def isDocumentMark (text : List Char) : Bool :=
  "---".toList.isPrefixOf text || "...".toList.isPrefixOf text

def hasPair (first second : Char → Bool) : List Char → Bool
  | c :: d :: rest => (first c && second d) || hasPair first second (d :: rest)
  | _ => false

def isSpace (c : Char) : Bool := c == ' '

def hasSpaceBeforeBreak (text : List Char) : Bool := hasPair isSpace isBreak text

def hasSpaceAfterBreak (text : List Char) : Bool := hasPair isBreak isSpace text

def plainAllowed (text : List Char) : Bool :=
  text.all isPrintable && !text.any isBreak && text.head? != some ' ' &&
    text.getLast? != some ' ' && !isDocumentMark text && !hasIndicator none text

/-- A space beside a line break would be lost in single quotes. -/
def singleAllowed (text : List Char) : Bool :=
  text.all isPrintable && !hasSpaceBeforeBreak text && !hasSpaceAfterBreak text

def literalAllowed (text : List Char) : Bool :=
  text.all isPrintable && !hasSpaceBeforeBreak text && text.getLast? != some ' '

/-- The style wished for where it is allowed, and else the next one that is. -/
def style (text : List Char) : Style :=
  match wished text with
  | .literal => if literalAllowed text then .literal else .double
  | .plain =>
    if plainAllowed text then .plain else if singleAllowed text then .single else .double
  | _ => if singleAllowed text then .single else .double

/-! ### Writing -/

def spaces (count : Nat) : List Char := List.replicate count ' '

/-- In single quotes a quote is written twice, and what follows a line break is indented. -/
def writeSingle (indent : Nat) (afterBreak : Bool) : List Char → List Char
  | [] => if afterBreak then spaces indent else []
  | c :: rest =>
    if isBreak c then c :: writeSingle indent true rest
    else
      (if afterBreak then spaces indent else []) ++
        (if c == '\'' then ['\'', '\''] else [c]) ++ writeSingle indent false rest

def hexDigits (width code : Nat) : List Char :=
  let digits := (Nat.toDigits 16 code).map Char.toUpper
  List.replicate (width - digits.length) '0' ++ digits

def shortEscape? (c : Char) : Option Char :=
  match c with
  | '\x00' => some '0'
  | '\x07' => some 'a'
  | '\x08' => some 'b'
  | '\t' => some 't'
  | '\n' => some 'n'
  | '\x0b' => some 'v'
  | '\x0c' => some 'f'
  | '\r' => some 'r'
  | '\x1b' => some 'e'
  | '"' => some '"'
  | '\\' => some '\\'
  | '\x85' => some 'N'
  | '\u2028' => some 'L'
  | '\u2029' => some 'P'
  | _ => none

def escapeDouble (c : Char) : List Char :=
  match shortEscape? c with
  | some short => ['\\', short]
  | none =>
    if isPrintable c then [c]
    else if c.toNat ≤ 0xff then '\\' :: 'x' :: hexDigits 2 c.toNat
    else if c.toNat ≤ 0xffff then '\\' :: 'u' :: hexDigits 4 c.toNat
    else '\\' :: 'U' :: hexDigits 8 c.toNat

/-- The lines of a block, each indented unless it is empty. -/
def writeLines (indent : Nat) (afterBreak : Bool) : List Char → List Char
  | [] => []
  | c :: rest =>
    if isBreak c then c :: writeLines indent true rest
    else (if afterBreak then spaces indent else []) ++ c :: writeLines indent false rest

/-- How the line breaks at the end of a block are meant: all kept, one kept or none there. -/
def chomping (text : List Char) : List Char :=
  match text.reverse with
  | [] => ['-']
  | last :: before =>
    if !isBreak last then ['-']
    else
      match before with
      | [] => ['+']
      | c :: _ => if isBreak c then ['+'] else []

/-- A block that begins with a blank or a line break has to say how far it is indented. -/
def indentation (text : List Char) : List Char :=
  if text.head?.any fun c => c == ' ' || isBreak c then ['2'] else []

/-- A text as the value of a field, with what further lines are indented by. A block ends its last
line itself if the text does. -/
def write (indent : Nat) (text : List Char) : List Char :=
  let endLine := ['\n']
  match style text with
  | .plain => text ++ endLine
  | .single => '\'' :: writeSingle indent false text ++ '\'' :: endLine
  | .double => '"' :: text.flatMap escapeDouble ++ '"' :: endLine
  | .literal =>
    '|' :: indentation text ++ chomping text ++ '\n' :: writeLines indent true text ++
      if text.getLast?.any isBreak then [] else endLine

end Highlighter.Yaml
