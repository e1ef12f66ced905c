import Highlighter.Settings.Value

/-!
Reading TOML documents. No key may be given twice, and a table that one form of the notation has
closed is not opened again by another.
-/

set_option autoImplicit false

namespace Highlighter.Settings.Toml

/-- What is left to read behind something that has been read. -/
abbrev Reading (β : Type) := Option (β × List Char)

/-! ### Blanks, line ends and comments -/

def isBlank (c : Char) : Bool := c == ' ' || c == '\t'

def dropBlanks (text : List Char) : List Char := text.dropWhile isBlank

/-- Control characters but the tabulator have no place in comments and strings. -/
def isAllowed (c : Char) : Bool := c == '\t' || (0x20 ≤ c.toNat && c.toNat != 0x7f)

def newline? : List Char → Option (List Char)
  | '\n' :: rest => some rest
  | '\r' :: '\n' :: rest => some rest
  | _ => none

def dropComment : List Char → List Char
  | '#' :: rest => rest.dropWhile isAllowed
  | text => text

/-- The end of a line or of the text, behind blanks and a comment. -/
def lineEnd? (text : List Char) : Option (List Char) :=
  match dropComment (dropBlanks text) with
  | [] => some []
  | rest => newline? rest

/-- Drop blanks, line ends and comments. -/
def dropGap : Nat → List Char → List Char
  | 0, text => text
  | fuel + 1, text =>
    match dropComment (dropBlanks text) with
    | '\n' :: rest => dropGap fuel rest
    | '\r' :: '\n' :: rest => dropGap fuel rest
    | rest => rest

/-! ### Strings -/

def charOfDigits? (digits : List Char) : Option Char :=
  (natOfDigits? 16 digits).bind fun code =>
    if code.isValidChar then some (Char.ofNat code) else none

/-- What one character stands for behind a backslash. -/
def shortEscape? (c : Char) : Option Char :=
  match c with
  | 'b' => some '\x08'
  | 't' => some '\t'
  | 'n' => some '\n'
  | 'f' => some '\x0c'
  | 'r' => some '\r'
  | '"' => some '"'
  | '\\' => some '\\'
  | _ => none

def escape? : List Char → Reading Char
  | 'u' :: a :: b :: c :: d :: rest => (charOfDigits? [a, b, c, d]).map (·, rest)
  | 'U' :: a :: b :: c :: d :: e :: f :: g :: h :: rest =>
    (charOfDigits? [a, b, c, d, e, f, g, h]).map (·, rest)
  | c :: rest => (shortEscape? c).map (·, rest)
  | [] => none

def basic? (done : List Char) : Nat → List Char → Reading (List Char)
  | _, [] => none
  | 0, _ => none
  | _ + 1, '"' :: rest => some (done.reverse, rest)
  | fuel + 1, '\\' :: rest =>
    (escape? rest).bind fun (c, rest) => basic? (c :: done) fuel rest
  | fuel + 1, c :: rest => if isAllowed c then basic? (c :: done) fuel rest else none

def literal? (text : List Char) : Reading (List Char) :=
  match text.dropWhile fun c => isAllowed c && c != '\'' with
  | '\'' :: rest => some (text.takeWhile (· != '\''), rest)
  | _ => none

/-- The rest of a string between three quotes of this kind, which may run over lines. One or two
quotes may stand in it anywhere, also before the closing ones. In double quotes there are escapes,
and a backslash at the end of a line joins it to the next character that is no blank. -/
def multiLine? (quote : Char) (done : List Char) (joining : Bool) :
    Nat → List Char → Reading (List Char)
  | _, [] => none
  | 0, _ => none
  | fuel + 1, c :: rest =>
    if c == '\n' then multiLine? quote (if joining then done else '\n' :: done) joining fuel rest
    else if c == '\r' then
      match rest with
      | '\n' :: rest =>
        multiLine? quote (if joining then done else '\n' :: done) joining fuel rest
      | _ => none
    else if joining && isBlank c then multiLine? quote done true fuel rest
    else if c == quote then
      let quotes := (c :: rest).takeWhile (· == quote) |>.length
      if quotes < 3 then multiLine? quote (c :: done) false fuel rest
      else
        let inside := min (quotes - 3) 2
        some ((List.replicate inside quote ++ done).reverse, (c :: rest).drop (inside + 3))
    else if c == '\\' && quote == '"' then
      match newline? (dropBlanks rest) with
      | some rest => multiLine? quote done true fuel rest
      | none => (escape? rest).bind fun (c, rest) => multiLine? quote (c :: done) false fuel rest
    else if isAllowed c then multiLine? quote (c :: done) false fuel rest
    else none

/-- A line break directly behind the opening quotes is not part of the string. -/
def dropFirstBreak (text : List Char) : List Char := (newline? text).getD text

def string? (text : List Char) : Reading (List Char) :=
  match text with
  | '"' :: '"' :: '"' :: rest => multiLine? '"' [] false rest.length (dropFirstBreak rest)
  | '\'' :: '\'' :: '\'' :: rest => multiLine? '\'' [] false rest.length (dropFirstBreak rest)
  | '"' :: rest => basic? [] rest.length rest
  | '\'' :: rest => literal? rest
  | _ => none

/-! ### Keys -/

def isKeyChar (c : Char) : Bool := c.isAlphanum || c == '-' || c == '_'

def simpleKey? (text : List Char) : Reading String :=
  match text with
  | '"' :: rest => (basic? [] rest.length rest).map fun (key, rest) => (String.ofList key, rest)
  | '\'' :: rest => (literal? rest).map fun (key, rest) => (String.ofList key, rest)
  | text =>
    match text.takeWhile isKeyChar with
    | [] => none
    | key => some (String.ofList key, text.dropWhile isKeyChar)

/-- Lists and tables in braces are nested less deeply than this, and paths have fewer keys. -/
def maxDepth : Nat := 80

/-- Keys separated by points: the ones before the last, and the last. -/
def key? (path : List String) : Nat → List Char → Reading (List String × String)
  | 0, _ => none
  | fuel + 1, text =>
    (simpleKey? (dropBlanks text)).bind fun (key, rest) =>
      match dropBlanks rest with
      | '.' :: rest => key? (path ++ [key]) fuel rest
      | rest => if path.length + 1 < maxDepth then some ((path, key), rest) else none

/-! ### Numbers and dates -/

def digits? (isDigit : Char → Bool) : List Char → Option (List Char)
  | [] => none
  | [c] => if isDigit c then some [c] else none
  | c :: '_' :: d :: rest =>
    if isDigit c && isDigit d then (digits? isDigit (d :: rest)).map (c :: ·) else none
  | c :: d :: rest => if isDigit c then (digits? isDigit (d :: rest)).map (c :: ·) else none

/-- Decimal digits without a zero at their beginning. -/
def whole? (text : List Char) : Option (List Char) :=
  match text with
  | ['0'] => some ['0']
  | '0' :: _ => none
  | text => digits? Char.isDigit text

/-- Integers have 64 bits. -/
def integerOf? (isNegative : Bool) (base : Nat) (digits : List Char) : Option Value :=
  (natOfDigits? base digits).bind fun magnitude =>
    let value := if isNegative then -(magnitude : Int) else magnitude
    if Int64.minValue.toInt ≤ value && value ≤ Int64.maxValue.toInt then some (.integer value) else none

def isBaseDigit (base : Nat) (c : Char) : Bool := (digitValue? c).any (· < base)

def integer? (token : List Char) : Option Value :=
  match token with
  | '0' :: 'x' :: rest => (digits? (isBaseDigit 16) rest).bind (integerOf? false 16)
  | '0' :: 'o' :: rest => (digits? (isBaseDigit 8) rest).bind (integerOf? false 8)
  | '0' :: 'b' :: rest => (digits? (isBaseDigit 2) rest).bind (integerOf? false 2)
  | token =>
    let (isNegative, unsigned) := Decimal.takeSign token
    (whole? unsigned).bind (integerOf? isNegative 10)

def fraction? (text : List Char) : Option (List Char) :=
  match text with
  | [] => some []
  | '.' :: digits => digits? Char.isDigit digits
  | _ => none

def power? (text : List Char) : Option Int :=
  match text with
  | [] => some 0
  | _ :: rest =>
    let (isNegative, unsigned) := Decimal.takeSign rest
    ((digits? Char.isDigit unsigned).bind (natOfDigits? 10)).map fun power =>
      if isNegative then -(power : Int) else power

/-- A number beyond all doubles is refused if it is positive. -/
def float? (token : List Char) : Option Value :=
  let (isNegative, unsigned) := Decimal.takeSign token
  if unsigned == ['i', 'n', 'f'] then some (.float (.infinite isNegative))
  else if unsigned == ['n', 'a', 'n'] then some (.float .notANumber)
  else
    let isE := fun c => c == 'e' || c == 'E'
    let mantissa := unsigned.takeWhile fun c => !isE c
    let exponent := unsigned.dropWhile fun c => !isE c
    let whole := mantissa.takeWhile (· != '.')
    match whole? whole, fraction? (mantissa.dropWhile (· != '.')), power? exponent with
    | some whole, some fraction, some power =>
      (natOfDigits? 10 (whole ++ fraction)).bind fun digits =>
        match Double.ofDecimal { isNegative, digits, power := power - fraction.length } with
        | .infinite false => none
        | number => some (.float number)
    | _, _, _ => none

def number? (count : Nat) (text : List Char) : Reading Nat :=
  let digits := text.take count
  if digits.length == count && digits.all Char.isDigit then
    (natOfDigits? 10 digits).map (·, text.drop count)
  else none

def expect? (c : Char) : List Char → Option (List Char)
  | [] => none
  | d :: rest => if d == c then some rest else none

def daysOf (year month : Nat) : Nat :=
  if month == 2 then
    if year % 4 == 0 && (year % 100 != 0 || year % 400 == 0) then 29 else 28
  else if [4, 6, 9, 11].contains month then 30
  else 31

def twoDigits (n : Nat) : List Char := if n < 10 then '0' :: decimal n else decimal n

def date? (text : List Char) : Option (List Char × List Char) := do
  let (year, rest) ← number? 4 text
  let (month, rest) ← number? 2 (← expect? '-' rest)
  let (day, rest) ← number? 2 (← expect? '-' rest)
  if 1 ≤ month && month ≤ 12 && 1 ≤ day && day ≤ daysOf year month then
    return (text.take 10, rest)
  else none

/-- Fractions of a second to nine places, without zeros at their end. -/
def secondFraction? (text : List Char) : Reading (List Char) :=
  match text with
  | '.' :: rest =>
    match rest.takeWhile Char.isDigit with
    | [] => none
    | digits =>
      let kept := ((digits.take 9).reverse.dropWhile (· == '0')).reverse
      some (if kept.isEmpty then [] else '.' :: kept, rest.dropWhile Char.isDigit)
  | text => some ([], text)

def time? (text : List Char) : Option (List Char × List Char) := do
  let (hour, rest) ← number? 2 text
  let (minute, rest) ← number? 2 (← expect? ':' rest)
  let (second, rest) ← number? 2 (← expect? ':' rest)
  let (fraction, rest) ← secondFraction? rest
  if hour ≤ 23 && minute ≤ 59 && second ≤ 60 then return (text.take 8 ++ fraction, rest) else none

def zone? (text : List Char) : Option (List Char) :=
  match text with
  | [] => some []
  | ['Z'] => some ['Z']
  | ['z'] => some ['Z']
  | sign :: rest => do
    let (hours, rest) ← number? 2 rest
    let (minutes, rest) ← number? 2 (← expect? ':' rest)
    if (sign == '+' || sign == '-') && hours ≤ 23 && minutes ≤ 59 && rest.isEmpty then
      let sign := if hours == 0 && minutes == 0 then '+' else sign
      return sign :: twoDigits hours ++ ':' :: twoDigits minutes
    else none

def zonedTime? (text : List Char) : Option (List Char) := do
  let (time, rest) ← time? text
  return time ++ (← zone? rest)

/-- A date, a time, or both in one word; it is kept as a text in its usual form. -/
def moment? (token : List Char) : Option (List Char) :=
  match date? token with
  | some (date, []) => some date
  | some (date, delimiter :: rest) =>
    if delimiter == 'T' || delimiter == 't' then (zonedTime? rest).map (date ++ 'T' :: ·) else none
  | none =>
    match time? token with
    | some (time, []) => some time
    | _ => none

def isTokenChar (c : Char) : Bool :=
  c.isAlphanum || c == '_' || c == '+' || c == '-' || c == '.' || c == ':'

/-- A date and a time may also be separated by a space. -/
def spacedMoment? (token rest : List Char) : Reading (List Char) :=
  match date? token, rest with
  | some (date, []), ' ' :: rest =>
    (zonedTime? (rest.takeWhile isTokenChar)).map fun time =>
      (date ++ 'T' :: time, rest.dropWhile isTokenChar)
  | _, _ => none

/-- A value that is one word: a truth value, a number or a date. -/
def word? (text : List Char) : Reading Value :=
  let token := text.takeWhile isTokenChar
  let rest := text.dropWhile isTokenChar
  if token == "true".toList then some (.bool true, rest)
  else if token == "false".toList then some (.bool false, rest)
  else
    match spacedMoment? token rest with
    | some (moment, rest) => some (.text (String.ofList moment), rest)
    | none =>
      match moment? token with
      | some moment => some (.text (String.ofList moment), rest)
      | none => ((integer? token).orElse fun _ => float? token).map (·, rest)

/-! ### Tables -/

inductive Origin where
  /-- By a header of its own, or as the document itself. -/
  | header
  /-- On the way to a table that has a header. -/
  | implied
  /-- By keys with points. -/
  | dotted
  /-- In braces. -/
  | inline
  deriving DecidableEq, Repr

inductive Node where
  | value (value : Value)
  | table (origin : Origin) (fields : List (String × Node))
  | array (items : List Node)
  /-- Tables of which each has a header with two brackets. -/
  | tables (items : List (List (String × Node)))

abbrev Fields := List (String × Node)

def find? (key : String) : Fields → Option Node
  | [] => none
  | (other, node) :: fields => if other = key then some node else find? key fields

def assign (key : String) (node : Node) : Fields → Fields
  | [] => [(key, node)]
  | (other, old) :: fields =>
    if other = key then (other, node) :: fields else (other, old) :: assign key node fields

mutual

def Node.toValue : Node → Value
  | .value value => value
  | .table _ fields => .table (fieldValues fields)
  | .array items => .list (itemValues items)
  | .tables items => .list (tableValues items)

def itemValues : List Node → List Value
  | [] => []
  | node :: nodes => node.toValue :: itemValues nodes

def fieldValues : List (String × Node) → List (String × Value)
  | [] => []
  | (key, node) :: fields => (key, node.toValue) :: fieldValues fields

def tableValues : List (List (String × Node)) → List Value
  | [] => []
  | fields :: tables => .table (fieldValues fields) :: tableValues tables

end

/-- Add a field below a path of keys with points. Tables that are missing on the way are made, and no
table on the way may have a header of its own; the last one must have been made by such a path. -/
def addField (key : String) (node : Node) : List String → Fields → Option Fields
  | [], fields =>
    if (find? key fields).isSome then none else some (assign key node fields)
  | first :: path, fields =>
    match find? first fields with
    | none => (addField key node path []).map fun inner =>
      assign first (.table .dotted inner) fields
    | some (.table .dotted inner) => (addField key node path inner).map fun inner =>
      assign first (.table .dotted inner) fields
    | some (.table .implied inner) =>
      if path.isEmpty then none
      else (addField key node path inner).map fun inner =>
        assign first (.table .implied inner) fields
    | some (.tables items) =>
      match path, items.reverse with
      | [], _ => none
      | _, [] => none
      | path, last :: others => (addField key node path last).map fun last =>
        assign first (.tables (others.reverse ++ [last])) fields
    | some _ => none

/-- Change the table at the end of a path of headers. On the way, the last of several tables of one
name is meant. -/
def changeTable (change : Fields → Option Fields) : List String → Fields → Option Fields
  | [], fields => change fields
  | first :: path, fields =>
    match find? first fields with
    | none => (changeTable change path []).map fun inner =>
      assign first (.table .implied inner) fields
    | some (.table .inline _) => none
    | some (.table origin inner) => (changeTable change path inner).map fun inner =>
      assign first (.table origin inner) fields
    | some (.tables items) =>
      match items.reverse with
      | [] => none
      | last :: others => (changeTable change path last).map fun last =>
        assign first (.tables (others.reverse ++ [last])) fields
    | some _ => none

/-- Open the table of a header: a new one, or one that has only been implied. -/
def openTable (key : String) (fields : Fields) : Option Fields :=
  match find? key fields with
  | none => some (assign key (.table .header []) fields)
  | some (.table .implied inner) => some (assign key (.table .header inner) fields)
  | some _ => none

def openNext (key : String) (fields : Fields) : Option Fields :=
  match find? key fields with
  | none => some (assign key (.tables [[]]) fields)
  | some (.tables items) => some (assign key (.tables (items ++ [[]])) fields)
  | some _ => none

/-! ### Values -/

mutual

def value? (depth : Nat) : Nat → List Char → Reading Node
  | 0, _ => none
  | fuel + 1, text =>
    match text with
    | '"' :: _ => (string? text).map fun (chars, rest) => (.value (.text (String.ofList chars)), rest)
    | '\'' :: _ =>
      (string? text).map fun (chars, rest) => (.value (.text (String.ofList chars)), rest)
    | '[' :: rest =>
      if maxDepth ≤ depth + 1 then none
      else (items? (depth + 1) [] fuel rest).map fun (items, rest) => (.array items, rest)
    | '\x7b' :: rest =>
      if maxDepth ≤ depth + 1 then none
      else
        match dropBlanks rest with
        | '\x7d' :: rest => some (.table .inline [], rest)
        | rest =>
          (fields? (depth + 1) [] fuel rest).map fun (fields, rest) => (.table .inline fields, rest)
    | text => (word? text).map fun (value, rest) => (.value value, rest)

def items? (depth : Nat) (done : List Node) : Nat → List Char → Reading (List Node)
  | 0, _ => none
  | fuel + 1, text =>
    match dropGap text.length text with
    | ']' :: rest => some (done, rest)
    | text =>
      match value? depth fuel text with
      | none => none
      | some (item, rest) =>
        match dropGap rest.length rest with
        | ',' :: rest => items? depth (done ++ [item]) fuel rest
        | ']' :: rest => some (done ++ [item], rest)
        | _ => none

/-- The rest of a table in braces, which stands on one line. -/
def fields? (depth : Nat) (done : Fields) : Nat → List Char → Reading Fields
  | 0, _ => none
  | fuel + 1, text =>
    match key? [] text.length text with
    | some ((path, key), '=' :: rest) =>
      match value? depth fuel (dropBlanks rest) with
      | none => none
      | some (node, rest) =>
        match addField key node path done, dropBlanks rest with
        | some done, ',' :: rest => fields? depth done fuel rest
        | some done, '\x7d' :: rest => some (done, rest)
        | _, _ => none
    | _ => none

end

/-! ### Documents -/

/-- A document as far as it has been read: all tables, and the path of the one that is open. -/
structure Document where
  root : Fields := []
  opened : List String := []

/-- A header, behind its first bracket. -/
def header? (document : Document) (text : List Char) : Reading Document :=
  match text with
  | '[' :: rest =>
    match key? [] rest.length rest with
    | some ((path, key), ']' :: ']' :: rest) =>
      (changeTable (openNext key) path document.root).bind fun root =>
        (lineEnd? rest).map (⟨root, path ++ [key]⟩, ·)
    | _ => none
  | text =>
    match key? [] text.length text with
    | some ((path, key), ']' :: rest) =>
      (changeTable (openTable key) path document.root).bind fun root =>
        (lineEnd? rest).map (⟨root, path ++ [key]⟩, ·)
    | _ => none

def assignment? (document : Document) (text : List Char) : Reading Document :=
  match key? [] text.length text with
  | some ((path, key), '=' :: rest) =>
    (value? 0 rest.length (dropBlanks rest)).bind fun (node, rest) =>
      (changeTable (addField key node path) document.opened document.root).bind fun root =>
        (lineEnd? rest).map (⟨root, document.opened⟩, ·)
  | _ => none

/-- Read line by line; each takes at least one character. -/
def document? (document : Document) : Nat → List Char → Option Document
  | 0, text => if text.isEmpty then some document else none
  | lines + 1, text =>
    match dropBlanks text with
    | [] => some document
    | '[' :: rest => (header? document rest).bind fun (document, rest) => document? document lines rest
    | '#' :: rest => (lineEnd? ('#' :: rest)).bind (document? document lines)
    | '\n' :: rest => document? document lines rest
    | '\r' :: rest => (newline? ('\r' :: rest)).bind (document? document lines)
    | text => (assignment? document text).bind fun (document, rest) => document? document lines rest

/-- The fields of the document that a text writes. A byte order mark may stand before it. -/
def read? (text : String) : Option (List (String × Value)) :=
  let chars := match text.toList with
    | '\ufeff' :: rest => rest
    | chars => chars
  (document? {} (chars.length + 1) chars).map fun document => fieldValues document.root

end Highlighter.Settings.Toml
