import Highlighter.Format.Yaml.Scalar
import Highlighter.Span.Record

/-!
Records as YAML: a list of mappings, with the children of a record in a list of their own under it.
-/

set_option autoImplicit false

namespace Highlighter.Yaml

mutual

/-- The fields of a record whose keys are indented by `indent`; the first key stands behind the
hyphen of its item. -/
def writeRecord (indent : Nat) : Record → List Char
  | ⟨category, start, stop, text, children⟩ =>
    spaces (indent - 2) ++ "- category: ".toList ++ category.name.toList ++
      '\n' :: spaces indent ++ "start: ".toList ++ decimal start ++
      '\n' :: spaces indent ++ "end: ".toList ++ decimal stop ++
      '\n' :: spaces indent ++ "text: ".toList ++ write (indent + 2) text ++
      (if children.isEmpty then [] else spaces indent ++ "children:\n".toList) ++
      writeRecords (indent + 2) children

def writeRecords (indent : Nat) : List Record → List Char
  | [] => []
  | record :: records => writeRecord indent record ++ writeRecords indent records

end

def renderRecords (records : List Record) : List Char :=
  match records with
  | [] => "[]\n".toList
  | records => writeRecords 2 records

end Highlighter.Yaml
