import Dialogue.Event
import Dialogue.Json.Interest
import Dialogue.Library.Error
import Dialogue.Table

/-!
# The vocabulary

Every event that a flow expects or sends has to be declared, so that a misspelt name is found when
the flow is loaded.

## Main definitions

* `EventDeclaration` — an entry as written in a file
* `Vocabulary` — the declared names and their kinds
* `Vocabulary.declare`, `Vocabulary.extend` — adding entries
-/

namespace Dialogue

/-- An entry of the vocabulary as written in a file. -/
structure EventDeclaration where
  /-- The name of the event. -/
  name : String
  /-- How sessions treat it. -/
  kind : EventKind
  /-- A text for readers. -/
  description : String

namespace EventDeclaration

/-- Whether a document is what stands for nothing. -/
def isUnit : Format → Json → Bool
  | .json, .null => true
  | .toml, .array [] | .toml, .object [] => true
  | _, _ => false

/-- Reads the kind of an event: its name, alone or with nothing assigned to it. -/
def kindOfJson? (f : Format) : Json → Option EventKind
  | .string s => EventKind.ofName? s
  | .object [(s, j)] => if isUnit f j then EventKind.ofName? s else none
  | _ => none

/-- The fields of an entry, in order. -/
def fieldNames : List String := ["name", "kind", "description"]

/-- The parts of a document that an entry needs. -/
def wanted : Json.Interest := .ofNames fieldNames

/-- Reads an entry. -/
def ofJson? (f : Format) (j : Json) : Option EventDeclaration := do
  let fs ← Json.record? f fieldNames j
  let name ← fs.required? "name" Json.asString?
  let kind ← fs.optional? "kind" (kindOfJson? f) .input
  let description ← fs.optional? "description" Json.asString? ""
  return { name, kind, description }

/-- The document of an entry. -/
def toJson (d : EventDeclaration) : Json :=
  Json.members [Json.present "name" (.string d.name), Json.present "kind" (.string d.kind.name),
    Json.omitIf d.description.isEmpty "description" (.string d.description)]

end EventDeclaration

/-- The declared events and their kinds. -/
abbrev Vocabulary := Table String EventKind

namespace Vocabulary

/-- The events that every session knows. -/
def standard : Vocabulary :=
  Table.ofList [(EventName.userSaid, .input), (EventName.userSilent, .input),
    (EventName.botSay, .output), (EventName.botGesture, .output),
    (EventName.actionFinished, .internal), (EventName.actionFailed, .internal),
    (EventName.timeout, .internal), (EventName.flowStarted, .internal),
    (EventName.flowFinished, .internal), (EventName.flowFailed, .internal)]

/-- Adds an event. Its name may not be blank, and it may not be declared with another kind. -/
def declare (v : Vocabulary) (name : String) (kind : EventKind) :
    Except DefinitionError Vocabulary :=
  if Text.isBlankText name then .error (.invalid "(vocabulary)" .emptyEventName)
  else
    match v.get? name with
    | some existing =>
      if existing = kind then .ok v else .error (.conflictingEventKind name existing kind)
    | none => .ok (v.insert name kind)

/-- Adds events one after the other. After a mistake the earlier ones remain, so the vocabulary is
part of the answer either way. -/
def extendWith (v : Vocabulary) : List EventDeclaration → Vocabulary × Option DefinitionError
  | [] => (v, none)
  | d :: ds =>
    match v.declare d.name d.kind with
    | .ok v => extendWith v ds
    | .error e => (v, some e)

/-- Adds events, or says what is wrong with the first one that cannot be added. -/
def extend (v : Vocabulary) (ds : List EventDeclaration) : Except DefinitionError Vocabulary :=
  match v.extendWith ds with
  | (v, none) => .ok v
  | (_, some e) => .error e

/-- Whether events of a name are meant for the user. -/
def isOutput (v : Vocabulary) (name : String) : Bool := v.get? name == some .output

end Vocabulary

end Dialogue
