import Dialogue.Text.Piece

/-!
# Paths

## Main definitions

* `parts` — the parts of a path that count
* `pathsAbove` — the paths above a path
* `fileName?`, `extension?` — the last part of a path, and what follows the last dot in it
* `joinPath` — a path below another one
* `hasZero` — whether a path is that of no file
-/

namespace Dialogue.Text

/-- The parts of a path. Empty parts do not count, and neither do single dots, except at the start
of a path that does not begin with a slash. -/
def parts (path : String) : List String :=
  let isAbsolute := startsWith path "/"
  ((split path '/').zipIdx.filter fun (part, i) =>
    !part.isEmpty && (part != "." || (i == 0 && !isAbsolute))).map Prod.fst

/-- The paths above a path, the nearest first. Neither the root nor the empty path is among them. -/
def pathsAbove (path : String) : List String :=
  let root := if startsWith path "/" then "/" else ""
  let ps := parts path
  (((List.range ps.length).drop 1).map fun n => root ++ "/".intercalate (ps.take n)).reverse

/-- The last part of a path, if it names something. -/
def fileName? (path : String) : Option String :=
  match (parts path).getLast? with
  | some part => if part == "." || part == ".." then none else some part
  | none => none

/-- The extension of a path: what follows the last dot of its last part, unless that is the first
character. -/
def extension? (path : String) : Option String := do
  let name ← fileName? path
  let cs := name.toList.reverse
  let after := cs.takeWhile (· != '.')
  let before := (cs.dropWhile (· != '.')).drop 1
  if before.isEmpty then none else some (String.ofList after.reverse)

/-- A path below another one. A path that begins with a slash stands for itself. -/
def joinPath (base path : String) : String :=
  if startsWith path "/" || base.isEmpty then path
  else if endsWith base "/" then base ++ path
  else base ++ "/" ++ path

/-- Whether a path has a zero character in it, which ends the names of files. -/
def hasZero (path : String) : Bool := path.toList.contains '\x00'

end Dialogue.Text
