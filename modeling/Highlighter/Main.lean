import Highlighter.CommandLine

/-!
The program: reads what the command asks for and shows what the command line answers.
-/

set_option autoImplicit false

namespace Highlighter.Program

/-- The number by which the system tells that a directory stands where a file is needed. -/
def directoryCode : UInt32 := 21

def readError : IO.Error → ReadError
  | .inappropriateType _ code _ =>
    if code == directoryCode then .isDirectory else .notDirectory
  | _ => .notFound

def readPath (path : String) : IO (Except ReadError ByteArray) := do
  try
    return .ok (← IO.FS.readBinFile path)
  catch error =>
    return .error (readError error)

/-- All files that a command may look at. -/
def pathsOf : CommandLine.Command → List String
  | .highlight options =>
    let settings := options.config.getD CommandLine.localSettings
    options.path.toList ++ settings :: (Settings.Loader.substitute? settings).toList
  | _ => []

/-- Standard input is read only if it is the source. -/
def needsInput : CommandLine.Command → Bool
  | .highlight options => options.path.isNone
  | _ => false

def gather (command : CommandLine.Command) : IO CommandLine.Inputs := do
  let found ← (pathsOf command).mapM fun path => do return (path, ← readPath path)
  let stdin ← if needsInput command then (← IO.getStdin).readBinToEnd else pure .empty
  return { stdin, files := fun path => (found.lookup path).getD (.error .notFound) }

def report (outcome : CommandLine.Outcome) : IO UInt32 := do
  IO.print outcome.output
  IO.eprint outcome.errorReport
  return outcome.status.toUInt32

def run (arguments : List String) : IO UInt32 := do
  match CommandLine.Command.ofArguments arguments with
  | .ok command => report (CommandLine.runCommand .silent (← gather command) command)
  | .error _ =>
    IO.eprintln "For more information, try '--help'."
    return 2

end Highlighter.Program

def main (arguments : List String) : IO UInt32 := Highlighter.Program.run arguments
