import Highlighter.Settings.Value

/-!
Paths to settings: a key, followed by keys of inner tables and indices of lists.
-/

set_option autoImplicit false

namespace Highlighter.Settings

inductive KeyPath where
  | key (name : String)
  | child (parent : KeyPath) (name : String)
  | item (parent : KeyPath) (index : Int)
  deriving DecidableEq, Repr

namespace KeyPath

def isKeyChar (c : Char) : Bool := c.isAlphanum || c == ' ' || c == '-' || c == '_'

def isBlank (c : Char) : Bool := c == ' ' || c == '\t'

def readKey? (text : List Char) : Option (String × List Char) :=
  match text.takeWhile isKeyChar with
  | [] => none
  | name => some (String.ofList name, text.dropWhile isKeyChar)

/-- An index between brackets, of which the first has been read. It counts from the end if it is
negative, and has 64 bits. -/
def readIndex? (text : List Char) : Option (Int × List Char) :=
  let (isNegative, digits) := match text.dropWhile isBlank with
    | '-' :: rest => (true, rest)
    | rest => (false, rest)
  match natOfDigits? 10 (digits.takeWhile Char.isDigit),
      (digits.dropWhile Char.isDigit).dropWhile isBlank with
  | some magnitude, ']' :: rest =>
    let index := if isNegative then -(magnitude : Int) else magnitude
    if Int64.minValue.toInt ≤ index && index ≤ Int64.maxValue.toInt then some (index, rest) else none
  | _, _ => none

/-- Read on behind a path; each step takes at least one character. -/
def extend? (path : KeyPath) : Nat → List Char → Option KeyPath
  | _, [] => some path
  | 0, _ => none
  | steps + 1, '.' :: rest =>
    (readKey? rest).bind fun (name, rest) => (child path name).extend? steps rest
  | steps + 1, '[' :: rest =>
    (readIndex? rest).bind fun (index, rest) => (item path index).extend? steps rest
  | _ + 1, _ => none

def read? (text : String) : Option KeyPath :=
  let chars := text.toList
  (readKey? chars).bind fun (name, rest) => (key name).extend? chars.length rest

/-- Change the value at a path; what is missing on the way, or of another kind, is made. -/
def update : KeyPath → (Value → Value) → Value → Value
  | .key name, change, root => root.updateKey change name
  | .child parent name, change, root => parent.update (·.updateKey change name) root
  | .item parent index, change, root => parent.update (·.updateItem change index) root

def set : KeyPath → Value → Value → Value
  | .key name, value, root => root.put name value
  | .child parent name, value, root => parent.update (·.put name value) root
  | .item parent index, value, root => parent.update (·.updateItem (fun _ => value) index) root

end KeyPath

end Highlighter.Settings
