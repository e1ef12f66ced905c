import Highlighter.Number.Decimal
import Highlighter.Span.Record

/-!
Records as JSON, one value a line and two blanks of indentation a level.
-/

set_option autoImplicit false

namespace Highlighter

inductive Json where
  | text (chars : List Char)
  | number (value : Nat)
  | list (items : List Json)
  | object (fields : List (String × Json))

namespace Json

/-- A control character without a short form, by its value in four hexadecimal digits. -/
def escapeCode (c : Char) : List Char :=
  let digits := Nat.toDigits 16 c.toNat
  ['\\', 'u'] ++ List.replicate (4 - digits.length) '0' ++ digits

def escapeChar (c : Char) : List Char :=
  match c with
  | '"' => ['\\', '"']
  | '\\' => ['\\', '\\']
  | '\x08' => ['\\', 'b']
  | '\x0c' => ['\\', 'f']
  | '\n' => ['\\', 'n']
  | '\r' => ['\\', 'r']
  | '\t' => ['\\', 't']
  | c => if c.toNat < 0x20 then escapeCode c else [c]

def quote (text : List Char) : List Char := '"' :: text.flatMap escapeChar ++ ['"']

def indent (depth : Nat) : List Char := List.replicate (2 * depth) ' '

def newline (depth : Nat) : List Char := '\n' :: indent depth

mutual

/-- The text of a value whose first line stands at this depth. -/
def render (depth : Nat) : Json → List Char
  | .text chars => quote chars
  | .number value => decimal value
  | .list [] => ['[', ']']
  | .list items => '[' :: renderItems (depth + 1) items ++ newline depth ++ [']']
  | .object [] => ['\x7b', '\x7d']
  | .object fields => '\x7b' :: renderFields (depth + 1) fields ++ newline depth ++ ['\x7d']

def renderItems (depth : Nat) : List Json → List Char
  | [] => []
  | [item] => newline depth ++ item.render depth
  | item :: items => newline depth ++ item.render depth ++ ',' :: renderItems depth items

def renderFields (depth : Nat) : List (String × Json) → List Char
  | [] => []
  | [(key, value)] => newline depth ++ quote key.toList ++ ':' :: ' ' :: value.render depth
  | (key, value) :: fields =>
    newline depth ++ quote key.toList ++ ':' :: ' ' :: value.render depth ++
      ',' :: renderFields depth fields

end

mutual

/-- A record's children are left out if there are none. -/
def ofRecord : Record → Json
  | ⟨category, start, stop, covered, children⟩ =>
    .object (
      [("category", .text category.name.toList), ("start", .number start), ("end", .number stop),
        ("text", .text covered)] ++
      if children.isEmpty then [] else [("children", .list (ofRecords children))])

def ofRecords : List Record → List Json
  | [] => []
  | record :: records => ofRecord record :: ofRecords records

end

def renderRecords (records : List Record) : List Char := (Json.list (ofRecords records)).render 0

end Json

end Highlighter
