import Dialogue.Text.Path

/-!
# The surroundings of a command

What a command needs from its surroundings is a value that the command is given, so that it can be
run against real files as well as against a tree of files that is itself a value.

## Main definitions

* `FileError`, `System`
* `System.createDirectories` — creating a directory and those above it
-/

namespace Dialogue

/-- Why a file cannot be used. -/
inductive FileError where
  | notFound
  | notDirectory
  | isDirectory
  | alreadyExists
  | nameTooLong
  | zeroInName
  | other (text : String)

namespace FileError

/-- What systems say about an error, its number and the name of its kind. -/
def details? : FileError → Option (String × Nat × String)
  | notFound => some ("No such file or directory", 2, "NotFound")
  | notDirectory => some ("Not a directory", 20, "NotADirectory")
  | isDirectory => some ("Is a directory", 21, "IsADirectory")
  | alreadyExists => some ("File exists", 17, "AlreadyExists")
  | nameTooLong => some ("File name too long", 36, "InvalidFilename")
  | zeroInName | other _ => none

/-- What is wrong with a path that has a zero character in it. -/
def zeroInNameText : String := "file name contained an unexpected NUL byte"

/-- The wording of why a file cannot be used. -/
def message (e : FileError) : String :=
  match e.details?, e with
  | some (text, number, _), _ => s!"{text} (os error {number})"
  | none, zeroInName => zeroInNameText
  | none, other text => text
  | none, _ => ""

end FileError

/-- What a command needs from its surroundings. -/
structure System (m : Type → Type) where
  /-- Whether there is something at a path. -/
  pathExists : String → m Bool
  /-- Whether there is a directory at a path. -/
  isDirectory : String → m Bool
  /-- The text of a file. -/
  read : String → m (Except FileError String)
  /-- Creates a directory in one that is there. -/
  createDirectory : String → m (Except FileError Unit)
  /-- Writes a file. -/
  write : String → String → m (Except FileError Unit)
  /-- Shows a line. -/
  print : String → m Unit
  /-- A variable of the environment. -/
  environment : String → m (Option String)

namespace System

variable {m : Type → Type} [Monad m]

/-- Creates a directory, which may be there already. -/
def ensureDirectory (sys : System m) (path : String) : m (Except FileError Unit) := do
  match ← sys.createDirectory path with
  | .ok () => return .ok ()
  | .error e => if ← sys.isDirectory path then return .ok () else return .error e

/-- Creates the first directory of a list. If the directory it lies in is not there, the others are
created before it in the same way. -/
def createFirst (sys : System m) : List String → m (Except FileError Unit)
  | [] => return .ok ()
  | path :: above => do
    match ← sys.ensureDirectory path with
    | .error .notFound =>
      match ← createFirst sys above with
      | .ok () => sys.ensureDirectory path
      | .error e => return .error e
    | result => return result

/-- Creates a directory and those above it that are not there yet. -/
def createDirectories (sys : System m) (path : String) : m (Except FileError Unit) :=
  sys.createFirst (path :: Text.pathsAbove path)

end System

end Dialogue
