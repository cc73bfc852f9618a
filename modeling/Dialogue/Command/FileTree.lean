import Dialogue.Command.System

/-!
# Trees of files

A tree of files is a value that a command can be run against. A path is followed name by name from
the root or from the current directory, and only directories lead on: a slash or a dot behind the
name of a file is a mistake, and two dots lead back from the directory that has been reached.

## Main definitions

* `FileTree`, `FileTree.add`
* `FileTree.place?` — where a path leads
* `FileTree.system` — commands against a tree
-/

namespace Dialogue

/-- The place of a file or a directory: the names on the way to it from the root. -/
abbrev Place := List String

/-- A tree of files. Whatever is above a file or a directory is a directory. -/
structure FileTree where
  /-- The current directory. -/
  here : Place
  /-- The other directories that are there for sure. -/
  directories : List Place
  /-- The files and their texts. -/
  files : List (Place × String)

namespace FileTree

/-- How many bytes a name may have. -/
def maxNameSize : Nat := 255

/-- How many bytes a path may have. -/
def maxPathSize : Nat := 4095

/-- The text of the file at a place. -/
def textAt? (t : FileTree) (place : Place) : Option String := t.files.lookup place

/-- Whether there is a directory at a place. -/
def hasDirectory (t : FileTree) (place : Place) : Bool :=
  place.isPrefixOf t.here || t.directories.any place.isPrefixOf
    || t.files.any fun f => place != f.1 && place.isPrefixOf f.1

/-- Where names lead from a place. There may be nothing at the end of the way, but what the names
are looked up in has to be a directory. -/
def walk (t : FileTree) : Place → List String → Except FileError Place
  | place, [] => .ok place
  | place, name :: names =>
    if (t.textAt? place).isSome then .error .notDirectory
    else if !t.hasDirectory place then .error .notFound
    else if name.isEmpty || name == "." then t.walk place names
    else if name == ".." then t.walk place.dropLast names
    else if maxNameSize < name.utf8ByteSize then .error .nameTooLong
    else t.walk (place ++ [name]) names

/-- The place where a path begins. -/
def start (t : FileTree) (path : String) : Place :=
  if Text.startsWith path "/" then [] else t.here

/-- Where a path leads. -/
def place? (t : FileTree) (path : String) : Except FileError Place :=
  if Text.hasZero path then .error .zeroInName
  else if path.isEmpty then .error .notFound
  else if maxPathSize < path.utf8ByteSize then .error .nameTooLong
  else t.walk (t.start path) (Text.split path '/')

/-- A tree with a file at a path, and with the directories above it. -/
def add (t : FileTree) (path text : String) : FileTree :=
  let names := (Text.split path '/').filter fun name => !name.isEmpty && name != "."
  { t with files := (t.start path ++ names, text) :: t.files }

/-- Whether there is a directory at a path. -/
def isDirectory (t : FileTree) (path : String) : Bool :=
  match t.place? path with
  | .ok place => t.hasDirectory place
  | .error _ => false

/-- Whether there is something at a path. -/
def pathExists (t : FileTree) (path : String) : Bool :=
  match t.place? path with
  | .ok place => t.hasDirectory place || (t.textAt? place).isSome
  | .error _ => false

/-- The text of a file. -/
def read (t : FileTree) (path : String) : Except FileError String := do
  let place ← t.place? path
  match t.textAt? place with
  | some text => return text
  | none => throw (if t.hasDirectory place then .isDirectory else .notFound)

/-- Creates a directory. What it lies in has to be there. The last name of the path must be that of
something new; slashes behind it do not count. -/
def createDirectory (t : FileTree) (path : String) : Except FileError FileTree := do
  let names := ((Text.split path '/').reverse.dropWhile String.isEmpty).reverse
  match names.getLast? with
  | none => throw (if path.isEmpty then .notFound else .alreadyExists)
  | some name =>
    let place ← t.place? ("/".intercalate names)
    if name == "." || name == ".." || t.hasDirectory place || (t.textAt? place).isSome then
      throw .alreadyExists
    return { t with directories := place :: t.directories }

/-- Writes a file. Its directory has to be there. -/
def write (t : FileTree) (path text : String) : Except FileError FileTree := do
  let place ← t.place? path
  if t.hasDirectory place then throw .isDirectory
  return { t with files := (place, text) :: t.files.filter fun f => f.1 != place }

/-- Changes a tree, if that is possible. -/
def change (act : FileTree → Except FileError FileTree) :
    StateM (FileTree × Array String) (Except FileError Unit) := fun (t, out) =>
  match act t with
  | .ok t => (.ok (), t, out)
  | .error e => (.error e, t, out)

/-- Surroundings that consist of a tree of files, the lines shown so far, and an environment. -/
def system (environment : String → Option String) : System (StateM (FileTree × Array String)) where
  pathExists path := return (← get).1.pathExists path
  isDirectory path := return (← get).1.isDirectory path
  read path := return (← get).1.read path
  createDirectory path := change fun t => t.createDirectory path
  write path text := change fun t => t.write path text
  print line := modify fun (t, out) => (t, out.push line)
  environment key := return environment key

end FileTree

end Dialogue
