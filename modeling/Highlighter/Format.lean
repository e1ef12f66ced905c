import Highlighter.Format.Json
import Highlighter.Format.Markup
import Highlighter.Format.Tree
import Highlighter.Format.Yaml

/-!
Output formats and registries of them. A format turns a text and its spans into an output; a registry
finds formats by name.
-/

set_option autoImplicit false

namespace Highlighter

inductive FormatError where
  | notFound (name : String)
  | serialization (reason : String)
  /-- A span's range is not one of the text. -/
  | foreignSpan
  deriving DecidableEq, Repr

def FormatError.message : FormatError → String
  | .notFound name => s!"Format '{name}' not found"
  | .serialization reason => s!"Serialization error: {reason}"
  | .foreignSpan => "span outside the text"

structure Format where
  name : String
  description : String := ""
  render : List Char → List Span → Except FormatError (List Char)

namespace Format

def json : Format where
  name := "json"
  description := "Span records as pretty-printed JSON"
  render source spans := .ok (Json.renderRecords (Record.ofSpans source spans))

def yaml : Format where
  name := "yaml"
  description := "Span records as YAML"
  render source spans := .ok (Yaml.renderRecords (Record.ofSpans source spans))

/-- Markup whose tags have this class in common. -/
def html (commonClass : String) : Format where
  name := "html"
  description := "Source wrapped in <span> markup, one class per category"
  render source spans :=
    match Markup.render commonClass.toList source spans with
    | some output => .ok output
    | none => .error .foreignSpan

def tree : Format where
  name := "treeviz"
  description := "Indented span tree with byte ranges"
  render source spans := .ok (Tree.render source spans)

end Format

/-- Formats in the order of their names, one for each name. -/
structure Registry where
  formats : List Format := []

namespace Registry

def empty : Registry := {}

/-- Put a format in its place among the others, or in the place of the one that has its name. -/
def insert (format : Format) : List Format → List Format
  | [] => [format]
  | other :: formats =>
    if format.name < other.name then format :: other :: formats
    else if format.name = other.name then format :: formats
    else other :: insert format formats

def register (registry : Registry) (format : Format) : Registry :=
  ⟨insert format registry.formats⟩

/-- The format registered last under this name. -/
def get? (registry : Registry) (name : String) : Option Format :=
  registry.formats.find? (·.name == name)

def has (registry : Registry) (name : String) : Bool := (registry.get? name).isSome

def names (registry : Registry) : List String := registry.formats.map (·.name)

def render (registry : Registry) (name : String) (source : List Char) (spans : List Span) :
    Except FormatError (List Char) :=
  match registry.get? name with
  | none => .error (.notFound name)
  | some format => format.render source spans

def standard : Registry :=
  (((empty.register .json).register .yaml).register (.html Markup.defaultClass)).register .tree

end Registry

end Highlighter
