/-!
Directories of files, and what a path leads to in one.
-/

set_option autoImplicit false

namespace Highlighter

inductive ReadError where
  | notFound
  | isDirectory
  | notDirectory
  | notText
  deriving DecidableEq, Repr

def ReadError.message : ReadError → String
  | .notFound => "No such file or directory (os error 2)"
  | .isDirectory => "Is a directory (os error 21)"
  | .notDirectory => "Not a directory (os error 20)"
  | .notText => "stream did not contain valid UTF-8"

def decodeText (bytes : ByteArray) : Except ReadError String :=
  match String.fromUTF8? bytes with
  | some text => .ok text
  | none => .error .notText

/-- What there is to read at each path. -/
abbrev Files := String → Except ReadError ByteArray

def Files.readText (files : Files) (path : String) : Except ReadError String :=
  files path >>= decodeText

/-- Files by the names on the way to them, the outermost first. -/
structure Directory where
  entries : List (List String × ByteArray) := []

namespace Directory

def names (path : String) : List String := path.splitOn "/"

/-- A file of this path; slashes in it lead through inner directories. -/
def add (directory : Directory) (path : String) (bytes : ByteArray) : Directory :=
  ⟨directory.entries ++ [(names path, bytes)]⟩

def file? (directory : Directory) (place : List String) : Option ByteArray :=
  directory.entries.lookup place

def isDirectory (directory : Directory) (place : List String) : Bool :=
  place.isEmpty ||
    directory.entries.any fun (name, _) => place.isPrefixOf name && place.length < name.length

/-- Follow the names of a path from `place`. Only a directory has something inside it; an empty name
or a point stays there, and two points go back. -/
def follow (directory : Directory) (place : List String) :
    List String → Except ReadError (List String)
  | [] => .ok place
  | name :: rest =>
    if (directory.file? place).isSome then .error .notDirectory
    else if !directory.isDirectory place then .error .notFound
    else if name == "" || name == "." then directory.follow place rest
    else if name == ".." then
      if place.isEmpty then .error (if rest.isEmpty then .isDirectory else .notFound)
      else directory.follow place.dropLast rest
    else directory.follow (place ++ [name]) rest

/-- What a path leads to. A path from the root of all directories leads out of this one. -/
def files (directory : Directory) : Files := fun path =>
  if path == "" || (path.startsWith "/" && path != "/") then .error .notFound
  else do
    let place ← directory.follow [] (names path)
    match directory.file? place with
    | some bytes => .ok bytes
    | none => .error (if directory.isDirectory place then .isDirectory else .notFound)

end Directory

end Highlighter
