import Dialogue.Json
import Dialogue.Table

/-!
# Records in documents

A record is written as an object whose unknown members are ignored, or as the array of its fields
in order. A field that may be left out has a default; writing `null` for it is a mistake unless the
field is nullable. Tables written by hand are read a little more freely than objects.

## Main definitions

* `Format` — objects or tables
* `Json.record?` — the fields of a record
* `Json.Fields.required?`, `Json.Fields.optional?`, `Json.Fields.nullable?` — reading one field
* `Json.asString?`, `Json.asFloat?`, … — reading a scalar, a list or a table
-/

namespace Dialogue

/-- The formats in which records are written. -/
inductive Format where
  /-- Objects, as programs write them. -/
  | json
  /-- Tables, as people write them. -/
  | toml
  deriving DecidableEq

namespace Json

/-- The text of a string. -/
def asString? : Json → Option String
  | .string s => some s
  | _ => none

/-- A truth value. -/
def asBool? : Json → Option Bool
  | .bool b => some b
  | _ => none

/-- A number; whole numbers are numbers too. -/
def asFloat? : Json → Option Float
  | .int n => some (Float.ofInt n)
  | .float x => some x
  | _ => none

/-- A natural number of at most sixty-four bits; a float will not do, even a whole one. -/
def asNat? : Json → Option Nat
  | .int n => if 0 ≤ n ∧ n < UInt64.size then some n.toNat else none
  | _ => none

/-- A list of things that are read alike. -/
def asList? {α : Type} (item : Json → Option α) : Json → Option (List α)
  | .array js => js.mapM item
  | _ => none

/-- A table of things that are read alike; of two members with one key the later counts. -/
def asTable? {α : Type} (item : Json → Option α) : Json → Option (Table String α)
  | .object ms => (ms.mapM fun m => (item m.2).map fun a => (m.1, a)).map Table.ofList
  | _ => none

/-- The named fields of a record. -/
abbrev Fields := List (String × Json)

/-- The fields of a record, written as an object or as an array. A field written twice is refused.
So is an array that is too long, but where records are tables its surplus is ignored. -/
def record? (f : Format) (names : List String) : Json → Option Fields
  | .object ms =>
    let known := ms.filter fun m => names.contains m.1
    if (known.map Prod.fst).Nodup then some known else none
  | .array js => if js.length ≤ names.length ∨ f = .toml then some (names.zip js) else none
  | _ => none

namespace Fields

/-- The document of a field. -/
def find? (fs : Fields) (name : String) : Option Json := List.lookup name fs

/-- A field that has to be there. -/
def required? {α : Type} (fs : Fields) (name : String) (read : Json → Option α) : Option α :=
  (fs.find? name).bind read

/-- A field with a default, which stands when the field is left out. -/
def optional? {α : Type} (fs : Fields) (name : String) (read : Json → Option α) (default : α) :
    Option α :=
  match fs.find? name with
  | none => some default
  | some j => read j

/-- A field that may be left out or null. -/
def nullable? {α : Type} (fs : Fields) (name : String) (read : Json → Option α) :
    Option (Option α) :=
  match fs.find? name with
  | none | some .null => some none
  | some j => (read j).map some

end Fields

/-- The members of an object that are there. -/
def members (ms : List (Option (String × Json))) : Json := .object (ms.filterMap id)

/-- A member that is always written. -/
def present (key : String) (j : Json) : Option (String × Json) := some (key, j)

/-- A member that is left out under a condition. -/
def omitIf (omitted : Bool) (key : String) (j : Json) : Option (String × Json) :=
  if omitted then none else some (key, j)

end Json

end Dialogue
