import Highlighter.Variant

/-!
Arguments of the command line: which command they name, and with what options. An option may be given
once, in a word of its own before its value or in one word with it; flags of one letter may share a
word. Behind two hyphens nothing is an option.
-/

set_option autoImplicit false

namespace Highlighter.CommandLine

/-- What can be said with options; each command knows some of them. -/
structure Options where
  path : Option String := none
  format : Option String := none
  variant : Option Variant := none
  config : Option String := none
  verbose : Bool := false
  deriving DecidableEq, Repr

inductive Command where
  | highlight (options : Options)
  | listFormats
  | rules (variant : Variant)
  | version
  | help
  deriving DecidableEq, Repr

inductive UsageError where
  | noCommand
  | unknownCommand (word : String)
  | unknownOption (word : String)
  | unexpectedWord (word : String)
  | unexpectedValue (option : String)
  | missingValue (option : String)
  | badValue (option value : String)
  | repeated (option : String)
  deriving DecidableEq, Repr

abbrev Usage (β : Type) := Except UsageError β

/-- The options that a value follows. -/
inductive Valued where
  | format
  | variant
  | config
  deriving DecidableEq, Repr

inductive Flag where
  | verbose
  | version
  | help
  deriving DecidableEq, Repr

/-- What a command knows besides the flags for more output and for help. -/
structure Known where
  hasPath : Bool := false
  valued : List Valued := []
  hasVersion : Bool := false

namespace Known

def top : Known := { hasVersion := true }

def highlight : Known := { hasPath := true, valued := [.format, .variant, .config] }

def listFormats : Known := {}

def rules : Known := { valued := [.variant] }

end Known

def Valued.name : Valued → String
  | .format => "format"
  | .variant => "variant"
  | .config => "config"

def Valued.letter? : Valued → Option Char
  | .format => some 'f'
  | .variant => none
  | .config => some 'c'

def Flag.name : Flag → String
  | .verbose => "verbose"
  | .version => "version"
  | .help => "help"

def Flag.letter : Flag → Char
  | .verbose => 'v'
  | .version => 'V'
  | .help => 'h'

def Known.flags (known : Known) : List Flag :=
  if known.hasVersion then [.verbose, .version, .help] else [.verbose, .help]

def setOnce (option : String) (value : String) : Option String → Usage (Option String)
  | none => .ok (some value)
  | some _ => .error (.repeated option)

/-- Take the value of an option. The variants are named exactly. -/
def Options.set (options : Options) (option : Valued) (value : String) : Usage Options := do
  match option with
  | .format => return { options with format := ← setOnce option.name value options.format }
  | .config => return { options with config := ← setOnce option.name value options.config }
  | .variant =>
    if options.variant.isSome then throw (.repeated option.name)
    match Variant.all.find? (·.name == value) with
    | some variant => return { options with variant := some variant }
    | none => throw (.badValue option.name value)

def Options.setPath (known : Known) (options : Options) (word : String) : Usage Options :=
  if known.hasPath && options.path.isNone then .ok { options with path := some word }
  else .error (.unexpectedWord word)

/-- What has been read of the arguments of one command. -/
inductive Progress where
  | going (options : Options)
  /-- The option whose value is the next word. -/
  | waiting (option : Valued) (options : Options)
  /-- A flag that settles what is to be done, whatever follows. -/
  | settled (command : Command)

def raise (options : Options) : Flag → Usage Progress
  | .verbose =>
    if options.verbose then .error (.repeated Flag.verbose.name)
    else .ok (.going { options with verbose := true })
  | .version => .ok (.settled .version)
  | .help => .ok (.settled .help)

/-- A word behind one hyphen: letters of flags, the last of which may be an option with its value,
with or without a sign of equality between them. -/
def readLetters (known : Known) (options : Options) : List Char → Usage Progress
  | [] => .ok (.going options)
  | letter :: rest =>
    match known.flags.find? (·.letter == letter) with
    | some flag =>
      match raise options flag with
      | .ok (.going options) => readLetters known options rest
      | progress => progress
    | none =>
      match known.valued.find? (·.letter? == some letter) with
      | none => .error (.unknownOption (String.singleton letter))
      | some option =>
        match rest with
        | [] => .ok (.waiting option options)
        | '=' :: value => (options.set option (String.ofList value)).map .going
        | value => (options.set option (String.ofList value)).map .going

/-- A word behind two hyphens: a name, and perhaps a value behind a sign of equality. -/
def readName (known : Known) (options : Options) (word : List Char) : Usage Progress :=
  let name := String.ofList (word.takeWhile (· != '='))
  let value? := match word.dropWhile (· != '=') with
    | [] => none
    | _ :: value => some (String.ofList value)
  match known.flags.find? (·.name == name), value? with
  | some flag, none => raise options flag
  | some _, some _ => .error (.unexpectedValue name)
  | none, value? =>
    match known.valued.find? (·.name == name), value? with
    | none, _ => .error (.unknownOption name)
    | some option, none => .ok (.waiting option options)
    | some option, some value => (options.set option value).map .going

/-- One word of the arguments, or the value that an option waits for. A hyphen alone is no option. -/
def readWord (known : Known) (progress : Progress) (word : String) : Usage Progress :=
  match progress, word.toList with
  | .settled command, _ => .ok (.settled command)
  | .waiting option _, '-' :: _ :: _ => .error (.missingValue option.name)
  | .waiting option options, _ => (options.set option word).map .going
  | .going options, '-' :: '-' :: name => readName known options name
  | .going options, '-' :: letter :: letters => readLetters known options (letter :: letters)
  | .going options, _ => (options.setPath known word).map .going

def readAll (known : Known) (progress : Progress) : List String → Usage Progress
  | [] =>
    match progress with
    | .waiting option _ => .error (.missingValue option.name)
    | progress => .ok progress
  | word :: words =>
    match progress with
    | .settled command => .ok (.settled command)
    | .waiting option options =>
      if word == "--" then .error (.missingValue option.name)
      else do readAll known (← readWord known (.waiting option options) word) words
    | .going options =>
      if word == "--" then
        (words.foldlM (Options.setPath known) options).map .going
      else do readAll known (← readWord known (.going options) word) words

def finish (known : Known) (command : Options → Command) (words : List String) : Usage Command := do
  match ← readAll known (.going {}) words with
  | .settled command => return command
  | .going options => return command options
  | .waiting option _ => throw (.missingValue option.name)

def commandNames : List String := ["highlight", "list-formats", "rules", "help"]

/-- Help is given on the program or on one of its commands. -/
def helpOn : List String → Usage Command
  | [] => .ok .help
  | [word] => if commandNames.contains word then .ok .help else .error (.unknownCommand word)
  | _ :: word :: _ => .error (.unknownCommand word)

/-- The command that the first word names which is no option. -/
def parse (progress : Progress) : List String → Usage Command
  | [] =>
    match progress with
    | .settled command => .ok command
    | _ => .error .noCommand
  | word :: words =>
    match progress with
    | .settled command => .ok command
    | progress =>
      match word with
      | "highlight" => finish .highlight .highlight words
      | "list-formats" => finish .listFormats (fun _ => .listFormats) words
      | "rules" => finish .rules (fun options => .rules (options.variant.getD .default)) words
      | "help" => helpOn words
      | "--" => .error .noCommand
      | word =>
        match word.toList with
        | '-' :: _ :: _ => do parse (← readWord .top progress word) words
        | _ => .error (.unknownCommand word)

def Command.ofArguments (arguments : List String) : Usage Command := parse (.going {}) arguments

end Highlighter.CommandLine
