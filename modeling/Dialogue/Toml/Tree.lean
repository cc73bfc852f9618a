import Dialogue.Json

/-!
# The tree of a configuration document

A configuration document is a list of assignments under headings. Which assignments and headings
may follow which depends on how a table came about: by a heading of its own, only as a part of the
path of another heading, or by a dotted key. The tree remembers that until the document is read.

## Main definitions

* `Toml.Node` — a part of the tree
* `Toml.Node.assign`, `Toml.Node.openTable`, `Toml.Node.openElement` — an assignment under a path,
  a heading of a table, and a heading of an element of an array of tables
* `Toml.Node.toJson` — the document without the history of its tables
-/

namespace Dialogue.Toml

/-- A part of the tree. -/
inductive Node where
  /-- A value, which nothing can be added to. -/
  | leaf (j : Json)
  /-- A table. It is implicit if no heading of its own has opened it, and dotted if it came about by
  a dotted key. -/
  | table (isImplicit isDotted : Bool) (entries : List (String × Node))
  /-- An array of tables, the last one first. -/
  | elements (lastFirst : List Node)
  deriving Inhabited

namespace Node

/-- The table of a new document. -/
def root : Node := .table false false []

/-- Replaces the entry of a key. -/
def replace (key : String) (n : Node) (entries : List (String × Node)) : List (String × Node) :=
  entries.map fun e => if e.1 == key then (key, n) else e

/-- Changes the node at the end of a path. Tables that are not there are made on the way; a path
through an array of tables leads into its last element, and none leads through a value. A dotted
path does not lead into tables that a heading has opened. -/
def descend (dotted : Bool) (change : Node → Option Node) : List String → Node → Option Node
  | [], n => change n
  | key :: path, .table isImplicit isDotted entries =>
    match entries.lookup key with
    | none => do
      let child ← descend dotted change path (.table true dotted [])
      some (.table isImplicit isDotted (entries ++ [(key, child)]))
    | some (.elements (last :: others)) => do
      let child ← descend dotted change path last
      some (.table isImplicit isDotted (replace key (.elements (child :: others)) entries))
    | some (.table childIsImplicit childIsDotted childEntries) =>
      if dotted && !childIsImplicit then none
      else do
        let child ← descend dotted change path (.table childIsImplicit childIsDotted childEntries)
        some (.table isImplicit isDotted (replace key child entries))
    | some _ => none
  | _, _ => none

/-- Adds a key to a table. Keys with a dotted path before them belong to dotted tables, other keys
to other tables, and no key may be given twice. -/
def addKey (isPathEmpty : Bool) (key : String) (j : Json) : Node → Option Node
  | .table isImplicit isDotted entries =>
    if isDotted == isPathEmpty || (entries.lookup key).isSome then none
    else some (.table isImplicit isDotted (entries ++ [(key, .leaf j)]))
  | _ => none

/-- An assignment under a heading. -/
def assign (heading path : List String) (key : String) (j : Json) (n : Node) : Option Node :=
  descend false (descend true (addKey path.isEmpty key j) path) heading n

/-- Opens the table of a key, unless a heading or a dotted key has made it already. -/
def openKey (key : String) : Node → Option Node
  | .table isImplicit isDotted entries =>
    match entries.lookup key with
    | none => some (.table isImplicit isDotted (entries ++ [(key, .table false false [])]))
    | some (.table true false childEntries) =>
      some (.table isImplicit isDotted (replace key (.table false false childEntries) entries))
    | some _ => none
  | _ => none

/-- Opens a new element of the array of tables of a key. -/
def openElementKey (key : String) : Node → Option Node
  | .table isImplicit isDotted entries =>
    match entries.lookup key with
    | none => some (.table isImplicit isDotted (entries ++ [(key, .elements [root])]))
    | some (.elements ts) =>
      some (.table isImplicit isDotted (replace key (.elements (root :: ts)) entries))
    | some _ => none
  | _ => none

/-- A heading of a table. -/
def openTable (path : List String) (key : String) (n : Node) : Option Node :=
  descend false (openKey key) path n

/-- A heading of an element of an array of tables. -/
def openElement (path : List String) (key : String) (n : Node) : Option Node :=
  descend false (openElementKey key) path n

mutual

/-- The document of a node. -/
def toJson : Node → Json
  | leaf j => j
  | table _ _ entries => .object (entriesToJson entries)
  | elements ts => .array (nodesToJson ts).reverse

/-- The documents of a list of nodes. -/
def nodesToJson : List Node → List Json
  | [] => []
  | n :: ns => toJson n :: nodesToJson ns

/-- The documents of the entries of a table. -/
def entriesToJson : List (String × Node) → List (String × Json)
  | [] => []
  | (k, n) :: es => (k, toJson n) :: entriesToJson es

end

end Node

end Dialogue.Toml
