import Highlighter.Directory
import Highlighter.Format.Markup
import Highlighter.Settings.KeyPath
import Highlighter.Settings.Toml
import Highlighter.Variant

/-!
Settings. Files are layered over the defaults in the order in which they are named, and settings of
the caller over all files. Only the result is looked at: a value that a later layer hides does no
harm.
-/

set_option autoImplicit false

namespace Highlighter

structure Settings where
  variant : Variant
  /-- The name of an output format. -/
  format : String
  /-- The class that all tags of the markup have in common. -/
  commonClass : String
  deriving DecidableEq, Repr

namespace Settings

inductive Fault where
  /-- A text that is no path to a setting. -/
  | badPath (path : String)
  | unreadable (file : String)
  | badDocument (file : String)
  /-- A text is needed, and there is none. -/
  | noText
  /-- No variant has this name, or the value is of a kind that names none. -/
  | noVariant
  /-- A section that has no settings in it. -/
  | noSection (name : String)
  deriving DecidableEq, Repr

def defaults : Value :=
  .table [
    ("highlight", .table [("variant", .text Variant.default.name)]),
    ("output", .table [("format", .text "html")]),
    ("html", .table [("class_prefix", .text Markup.defaultClass)])]

structure FileLayer where
  name : String
  isRequired : Bool
  deriving DecidableEq, Repr

structure Loader where
  files : List FileLayer := []
  overrides : List (KeyPath × Value) := []

namespace Loader

def withFile (loader : Loader) (name : String) : Loader :=
  { loader with files := loader.files ++ [⟨name, true⟩] }

/-- A file that may be missing. -/
def withOptionalFile (loader : Loader) (name : String) : Loader :=
  { loader with files := loader.files ++ [⟨name, false⟩] }

def replace (path : KeyPath) (value : Value) : List (KeyPath × Value) → List (KeyPath × Value)
  | [] => [(path, value)]
  | (other, old) :: overrides =>
    if other = path then (other, value) :: overrides
    else (other, old) :: replace path value overrides

def overrideAt (loader : Loader) (path : KeyPath) (value : Value) : Loader :=
  { loader with overrides := replace path value loader.overrides }

def override (loader : Loader) (path : String) (value : Value) : Except Fault Loader :=
  match KeyPath.read? path with
  | some path => .ok (loader.overrideAt path value)
  | none => .error (.badPath path)

/-- A path, last character first, without the slashes and points at its end that lead nowhere. -/
def dropStays : List Char → List Char
  | '/' :: path => dropStays path
  | '.' :: '/' :: path => dropStays path
  | ['.'] => []
  | path => path

/-- The path of the file that stands in for a missing one: its name with the ending of its kind. A
path that stays where it is, or goes back last, has no name to put it behind. -/
def substitute? (path : String) : Option String :=
  match dropStays path.toList.reverse with
  | [] => none
  | ['.', '.'] => none
  | '.' :: '.' :: '/' :: _ => none
  | kept => some (String.ofList kept.reverse ++ ".toml")

/-- The text of the file at this path, or else of the one that stands in for it. -/
def readFile (files : Files) (path : String) : Option String :=
  match files path with
  | .ok bytes => (decodeText bytes).toOption
  | .error _ => (substitute? path).bind fun path => (files.readText path).toOption

/-- Put the fields of a document in place. Each key is read as a path, or else taken as it is. -/
def putFields (root : Value) (fields : List (String × Value)) : Value :=
  fields.foldl (fun root (key, value) =>
    match KeyPath.read? key with
    | some path => path.set value root
    | none => root.put key value) root

def addFile (files : Files) (root : Value) (layer : FileLayer) : Except Fault Value :=
  match readFile files layer.name with
  | none => if layer.isRequired then .error (.unreadable layer.name) else .ok root
  | some text =>
    match Toml.read? text with
    | none => .error (.badDocument layer.name)
    | some fields => .ok (putFields root fields)

def merged (loader : Loader) (files : Files) : Except Fault Value := do
  let root ← loader.files.foldlM (addFile files) defaults
  return loader.overrides.foldl (fun root (path, value) => path.set value root) root

end Loader

/-- The one setting of a section: by name in a table, or the first item of a list. -/
def sectionValue (root : Value) (name key : String) : Except Fault Value :=
  let found := match root.get? name with
    | some (.table fields) => Value.lookup key fields
    | some (.list items) => items.head?
    | _ => none
  match found with
  | some value => .ok value
  | none => .error (.noSection name)

def textValue (value : Value) : Except Fault String :=
  match value.toText? with
  | some text => .ok text
  | none => .error .noText

/-- A variant is given by its name, or by a table with its name as the only key. -/
def variantValue (value : Value) : Except Fault Variant :=
  let name := match value with
    | .text name => some name
    | .table [(name, _)] => some name
    | _ => none
  match name.bind Variant.ofName? with
  | some variant => .ok variant
  | none => .error .noVariant

def ofValue (root : Value) : Except Fault Settings := do
  let variant ← variantValue (← sectionValue root "highlight" "variant")
  let format ← textValue (← sectionValue root "output" "format")
  let commonClass ← textValue (← sectionValue root "html" "class_prefix")
  return { variant, format, commonClass }

def Loader.load (loader : Loader) (files : Files) : Except Fault Settings :=
  loader.merged files >>= ofValue

end Settings

end Highlighter
