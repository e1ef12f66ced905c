import Highlighter.Number.Decimal
import Highlighter.Span.Record

/-!
A strict reader of JSON, and records read from what it finds. Blanks are those of JSON alone, a text has no
control character that is not escaped, an escaped surrogate stands in a pair, a number has no zero in front of
other digits and a digit on each side of its point, and nothing but blanks follows the value. In a record a
field is found by its name; one without children has no field for them.
-/

set_option autoImplicit false

namespace Highlighter

namespace Json

/-! ### Values -/

inductive Datum where
  | null
  | boolean (value : Bool)
  | number (value : Decimal)
  | text (chars : List Char)
  | list (items : List Datum)
  | object (fields : List (List Char × Datum))

def isBlank (c : Char) : Bool := c == ' ' || c == '\t' || c == '\n' || c == '\r'

def skip (text : List Char) : List Char := text.dropWhile isBlank

/-! ### Texts -/

/-- Four hexadecimal digits. -/
def code? (text : List Char) : Option (Nat × List Char) :=
  if (text.take 4).length = 4 then (natOfDigits? 16 (text.take 4)).map (·, text.drop 4) else none

/-- A character by its code, or by those of its two surrogates. -/
def coded? (text : List Char) : Option (Char × List Char) :=
  match code? text with
  | none => none
  | some (code, rest) =>
    if code < 0xd800 ∨ 0xdfff < code then some (Char.ofNat code, rest)
    else if 0xdbff < code then none
    else match rest with
      | '\\' :: 'u' :: rest =>
        match code? rest with
        | none => none
        | some (low, rest) =>
          if 0xdc00 ≤ low ∧ low ≤ 0xdfff then
            some (Char.ofNat (0x10000 + (code - 0xd800) * 0x400 + (low - 0xdc00)), rest)
          else none
      | _ => none

def escaped? : Char → Option Char
  | '"' => some '"'
  | '\\' => some '\\'
  | '/' => some '/'
  | 'b' => some '\x08'
  | 'f' => some '\x0c'
  | 'n' => some '\n'
  | 'r' => some '\r'
  | 't' => some '\t'
  | _ => none

/-- The next character of a text. -/
def char? : List Char → Option (Char × List Char)
  | '\\' :: 'u' :: rest => coded? rest
  | '\\' :: c :: rest => (escaped? c).map (·, rest)
  | '\\' :: [] => none
  | c :: rest => if c.toNat < 0x20 then none else some (c, rest)
  | [] => none

/-- All characters up to the closing quote, and what follows it. -/
def chars? : Nat → List Char → Option (List Char × List Char)
  | 0, _ => none
  | _ + 1, '"' :: rest => some ([], rest)
  | fuel + 1, input =>
    match char? input with
    | none => none
    | some (c, rest) => (chars? fuel rest).map fun (chars, rest) => (c :: chars, rest)

/-! ### Words and numbers -/

/-- The characters of numbers and of the words for values. -/
def isWordChar (c : Char) : Bool := c.isAlphanum || c == '-' || c == '+' || c == '.'

/-- No zero in front of other digits, and a digit on each side of the point. -/
def isStrict (unsigned : List Char) : Bool :=
  let whole := unsigned.takeWhile Char.isDigit
  !whole.isEmpty && (whole.head? != some '0' || whole.length == 1) &&
    match unsigned.dropWhile Char.isDigit with
    | '.' :: rest => rest.head?.any Char.isDigit
    | _ => true

def unsigned? (word : List Char) : Option Decimal :=
  if isStrict word then Decimal.read? word else none

def number? : List Char → Option Decimal
  | '-' :: unsigned => (unsigned? unsigned).map fun number => { number with isNegative := true }
  | unsigned => unsigned? unsigned

def word? (word : List Char) : Option Datum :=
  if word = "null".toList then some .null
  else if word = "true".toList then some (.boolean true)
  else if word = "false".toList then some (.boolean false)
  else (number? word).map .number

/-! ### Lists and objects -/

/-- Behind an item there is the end of the list, or else a comma and more items. -/
def further? {α : Type} (closing : Char) (more : List Char → Option (List α × List Char))
    (text : List Char) : Option (List α × List Char) :=
  match skip text with
  | c :: rest => if c = closing then some ([], rest) else if c = ',' then more (skip rest) else none
  | [] => none

mutual

/-- A value and what follows it. -/
def value? : Nat → List Char → Option (Datum × List Char)
  | 0, _ => none
  | fuel + 1, '"' :: rest => (chars? fuel rest).map fun (chars, rest) => (.text chars, rest)
  | fuel + 1, '[' :: rest =>
    match skip rest with
    | ']' :: rest => some (.list [], rest)
    | rest => (items? fuel rest).map fun (items, rest) => (.list items, rest)
  | fuel + 1, '\x7b' :: rest =>
    match skip rest with
    | '\x7d' :: rest => some (.object [], rest)
    | rest => (fields? fuel rest).map fun (fields, rest) => (.object fields, rest)
  | _ + 1, input => (word? (input.takeWhile isWordChar)).map (·, input.dropWhile isWordChar)

/-- The items of a list through its closing bracket. -/
def items? : Nat → List Char → Option (List Datum × List Char)
  | 0, _ => none
  | fuel + 1, input =>
    match value? fuel input with
    | none => none
    | some (item, rest) => (further? ']' (items? fuel) rest).map fun (items, rest) => (item :: items, rest)

/-- The fields of an object through its closing brace. -/
def fields? : Nat → List Char → Option (List (List Char × Datum) × List Char)
  | fuel + 1, '"' :: rest =>
    match chars? fuel rest with
    | none => none
    | some (key, rest) =>
      match skip rest with
      | ':' :: rest =>
        match value? fuel (skip rest) with
        | none => none
        | some (value, rest) =>
          (further? '\x7d' (fields? fuel) rest).map fun (fields, rest) => ((key, value) :: fields, rest)
      | _ => none
  | _, _ => none

end

/-- The value of a JSON text. Of two steps one takes a character at least. -/
def read? (text : List Char) : Option Datum :=
  match value? (2 * text.length + 1) (skip text) with
  | some (datum, rest) => if (skip rest).isEmpty then some datum else none
  | none => none

/-! ### Records -/

def natural? : Datum → Option Nat
  | .number ⟨false, digits, 0⟩ => some digits
  | _ => none

def text? : Datum → Option (List Char)
  | .text chars => some chars
  | _ => none

mutual

def record? : Datum → Option Record
  | .object fields => do
    let category ← ((fields.lookup "category".toList).bind text?).bind fun name =>
      Category.ofName? (String.ofList name)
    let start ← (fields.lookup "start".toList).bind natural?
    let stop ← (fields.lookup "end".toList).bind natural?
    let text ← (fields.lookup "text".toList).bind text?
    let children ← children? fields
    return ⟨category, start, stop, text, children⟩
  | _ => none

/-- The records under `children`; a missing field is an empty list. -/
def children? : List (List Char × Datum) → Option (List Record)
  | [] => some []
  | (key, value) :: fields => if key = "children".toList then list? value else children? fields

def list? : Datum → Option (List Record)
  | .list items => records? items
  | _ => none

def records? : List Datum → Option (List Record)
  | [] => some []
  | item :: items => do return (← record? item) :: (← records? items)

end

def readRecords? (text : List Char) : Option (List Record) := (read? text).bind list?

end Json

namespace Record

mutual

/-- The span of a record. -/
def toSpan : Record → Span
  | ⟨category, start, stop, _, children⟩ => ⟨category, start, stop, toSpans children⟩

def toSpans : List Record → List Span
  | [] => []
  | record :: records => record.toSpan :: toSpans records

end

end Record

end Highlighter
