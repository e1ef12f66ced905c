import Highlighter.Number.Double

/-!
Settings as they are collected: values in tables, addressed by key. A later value takes the place of
an earlier one, but tables are merged key by key. Keys are the same in capital and small letters.
-/

set_option autoImplicit false

namespace Highlighter.Settings

inductive Value where
  | nil
  | bool (value : Bool)
  | integer (value : Int)
  | float (value : Double)
  | text (value : String)
  | list (items : List Value)
  | table (fields : List (String × Value))

namespace Value

/-- The fields of a table; any other value has none. -/
def fields : Value → List (String × Value)
  | .table fields => fields
  | _ => []

def items : Value → List Value
  | .list items => items
  | _ => []

def lookup (key : String) : List (String × Value) → Option Value
  | [] => none
  | (other, value) :: fields => if other = key then some value else lookup key fields

def assign (key : String) (value : Value) : List (String × Value) → List (String × Value)
  | [] => [(key, value)]
  | (other, old) :: fields =>
    if other = key then (other, value) :: fields else (other, old) :: assign key value fields

theorem lookup_assign (key other : String) (value : Value) (fields : List (String × Value)) :
    lookup key (assign other value fields) =
      if other = key then some value else lookup key fields := by
  induction fields with
  | nil => rfl
  | cons field fields ih =>
    obtain ⟨name, old⟩ := field
    simp only [assign]
    split
    next same =>
      subst same
      by_cases asked : name = key <;> simp [lookup, asked]
    next different =>
      by_cases asked : name = key
      · have unasked : other ≠ key := fun same => different (asked.trans same.symm)
        simp [lookup, asked, unasked]
      · simp [lookup, asked, ih]

def get? (value : Value) (key : String) : Option Value := lookup key value.fields

mutual

/-- Put a value under `key` in `root`, which becomes a table if it is none. -/
def put (root : Value) (key : String) : Value → Value
  | .table incoming =>
    let target := (root.get? key.toLower).getD (.table [])
    .table (assign key.toLower (merge target incoming) root.fields)
  | value => .table (assign key.toLower value root.fields)

def merge (target : Value) : List (String × Value) → Value
  | [] => target
  | (key, value) :: fields => merge (target.put key value) fields

end

/-- Change what is under `key`, which is nothing at first. -/
def updateKey (change : Value → Value) (key : String) (value : Value) : Value :=
  let key := key.toLower
  .table (assign key (change ((value.get? key).getD .nil)) value.fields)

/-- Change one item of a list, which becomes long enough to have it. -/
def updateItem (change : Value → Value) (index : Int) (value : Value) : Value :=
  let items := value.items
  let index := if index < 0 then items.length - index.natAbs else index.toNat
  let items := items ++ List.replicate (index + 1 - items.length) .nil
  .list (items.modify index change)

/-- The text of a value. Truth values and numbers are written out. -/
def toText? : Value → Option String
  | .bool value => some (if value then "true" else "false")
  | .integer value => some (toString value)
  | .float value => some (String.ofList value.write)
  | .text value => some value
  | _ => none

end Value

end Highlighter.Settings
