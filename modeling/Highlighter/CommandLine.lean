import Highlighter.CommandLine.Arguments
import Highlighter.Format
import Highlighter.Settings
import Highlighter.Text.Field

/-!
The command line as a function of what it is given: arguments, standard input and files determine the
exit status, the output and the complaint. Only how a fault in the settings is put into words is left
open.
-/

set_option autoImplicit false

namespace Highlighter.CommandLine

/-- How the library of the settings puts a fault into words, which may quote the options and the files
and take several lines. -/
abbrev Wording := Options → Files → Settings.Fault → String

/-- Of a fault, nothing is said but that it is one. -/
def Wording.silent : Wording := fun _ _ _ => ""

inductive Failure where
  /-- A fault in the settings, and the words for it. -/
  | settings (fault : Settings.Fault) (words : String)
  | source (name : String) (error : ReadError)
  | format (error : FormatError)
  deriving DecidableEq, Repr

def Failure.message : Failure → String
  | .settings _ words => "configuration: " ++ words
  | .source name error => s!"cannot read {name}: {error.message}"
  | .format error => error.message

structure Outcome where
  status : Nat
  output : String := ""
  /-- What is complained of. -/
  complaint : Option String := none
  deriving DecidableEq, Repr

/-- What is written of the complaint. The log goes to the same place, but is no part of this. -/
def Outcome.errorReport (outcome : Outcome) : String :=
  match outcome.complaint with
  | some complaint => "Error: " ++ complaint ++ "\n"
  | none => ""

/-- A file of settings that is used if it is there and no other is named. -/
def localSettings : String := "grimoire.toml"

structure Inputs where
  stdin : ByteArray
  files : Files

/-- Settings of the command line over those of files. -/
def loader (options : Options) : Except Settings.Fault Settings.Loader := do
  let base : Settings.Loader := {}
  let loader := match options.config with
    | some name => base.withFile name
    | none => base.withOptionalFile localSettings
  let loader ← match options.variant with
    | some variant => loader.override "highlight.variant" (.text variant.name)
    | none => pure loader
  match options.format with
  | some format => loader.override "output.format" (.text format)
  | none => pure loader

/-- The text of the named file, or else of standard input. -/
def readSource (inputs : Inputs) (path : Option String) : Except Failure String :=
  match path with
  | some path => (inputs.files.readText path).mapError (.source path)
  | none => (decodeText inputs.stdin).mapError (.source "stdin")

/-- Output ends with a line break unless there is none. -/
def endLine (output : List Char) : List Char :=
  if output.isEmpty || output.getLast? == some '\n' then output else output ++ ['\n']

/-- The settings come first, then the source, then the format. -/
def highlight (wording : Wording) (inputs : Inputs) (options : Options) :
    Except Failure (List Char) := do
  let settings ← (loader options >>= (·.load inputs.files)).mapError fun fault =>
    .settings fault (wording options inputs.files fault)
  let source := (← readSource inputs options.path).toList
  let spans := settings.variant.table.classify source
  let registry := Registry.standard.register (.html settings.commonClass)
  let output ← (registry.render settings.format source spans).mapError .format
  return endLine output

def listFormats : List Char :=
  "Available formats:\n\n".toList ++ Registry.standard.formats.flatMap fun format =>
    "  ".toList ++ Field.fill { width := 10 } format.name.toList ++ ' ' :: format.description.toList ++
      ['\n']

def ruleFlags (rule : Rule) : List String :=
  (if rule.lookbehind then ["lookbehind"] else []) ++ (if rule.greedy then ["greedy"] else []) ++
    (if rule.ignoreCase then ["nocase"] else []) ++
    if rule.nested.isSome then ["nested"] else []

def ruleLine (margin width : Nat) (category : Category) (flags pattern : String) : List Char :=
  List.replicate margin ' ' ++ Field.fill { width } category.name.toList ++
    ' ' :: Field.fill { width := 28 } flags.toList ++ ' ' :: pattern.toList ++ ['\n']

def describeRule (rule : Rule) : List Char :=
  let pattern := match rule.closing with
    | some (close, _) => rule.source ++ " ... " ++ close
    | none => rule.source
  let inner := match rule.nested with
    | some table => table.rules
    | none => []
  ruleLine 2 12 rule.category (",".intercalate (ruleFlags rule)) pattern ++
    inner.flatMap fun rule => ruleLine 4 10 rule.category "" rule.source

def listRules (variant : Variant) : List Char :=
  s!"grimoire {variant.name} rule table:\n\n".toList ++ variant.table.rules.flatMap describeRule

def versionText : String := "grimoire 0.1.0\n"

def helpText : String :=
  "Usage: grimoire [OPTIONS] <COMMAND>\n\nCommands: highlight, list-formats, rules, help\n"

def runCommand (wording : Wording) (inputs : Inputs) : Command → Outcome
  | .highlight options =>
    match highlight wording inputs options with
    | .ok output => { status := 0, output := String.ofList output }
    | .error failure => { status := 1, complaint := some failure.message }
  | .listFormats => { status := 0, output := String.ofList listFormats }
  | .rules variant => { status := 0, output := String.ofList (listRules variant) }
  | .version => { status := 0, output := versionText }
  | .help => { status := 0, output := helpText }

/-- Run the program. Arguments that name no command end it with status 2. -/
def run (inputs : Inputs) (arguments : List String) (wording : Wording := .silent) : Outcome :=
  match Command.ofArguments arguments with
  | .ok command => runCommand wording inputs command
  | .error _ => { status := 2 }

end Highlighter.CommandLine
