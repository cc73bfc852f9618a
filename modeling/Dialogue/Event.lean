import Dialogue.Json.Record
import Dialogue.Timestamp
import Dialogue.Value

/-!
# Events

An event has a name and named parameters. A session stamps each event that it takes in with the
next number of its sequence; two records are the same occurrence exactly when they bear the same
stamp, whatever their names and parameters.

## Main definitions

* `Event` — a record of something that happened or is to happen
* `EventName` — the names of the events that the library itself produces
* `Event.display` — the text of an event
-/

namespace Dialogue

/-- A record of something that happened, or that a flow wants to happen. -/
structure Event where
  /-- What kind of event it is. -/
  name : String
  /-- The particulars. -/
  parameters : Params
  /-- The number that the session gave it, zero before that. -/
  sequence : Nat
  deriving Inhabited, BEq

/-! ## Names -/

namespace EventName

/-- The user has said something. -/
def userSaid : String := "UserSaid"
/-- The user has stayed silent. -/
def userSilent : String := "UserSilent"
/-- The bot is to say something. -/
def botSay : String := "BotSay"
/-- The bot is to make a gesture. -/
def botGesture : String := "BotGesture"
/-- An action has a result. -/
def actionFinished : String := "ActionFinished"
/-- An action has failed. -/
def actionFailed : String := "ActionFailed"
/-- A timeout has passed. -/
def timeout : String := "Timeout"
/-- A flow instance has started. -/
def flowStarted : String := "FlowStarted"
/-- A flow instance has come to its end. -/
def flowFinished : String := "FlowFinished"
/-- A flow instance was ended early. -/
def flowFailed : String := "FlowFailed"

end EventName

namespace Event

/-- An event that no session has taken in yet. -/
def new (name : String) (parameters : Params) : Event := ⟨name, parameters, 0⟩

/-- An event with parameters given one by one. -/
def of (name : String) (parameters : List (String × Value)) : Event :=
  new name (Table.ofList parameters)

/-- The event of a user saying something. -/
def userSaid (text : String) : Event := of EventName.userSaid [("text", .string text)]

/-- The event with the stamp of a session. -/
def stamped (e : Event) (sequence : Nat) : Event := { e with sequence }

/-- The parameter of a name. -/
def parameter? (e : Event) (name : String) : Option Value := e.parameters.get? name

/-- The parameter `text`, if it is a string. -/
def text? (e : Event) : Option String := (e.parameter? "text").bind Value.asString?

/-- Whether two records describe one occurrence. -/
def sameOccurrence (e f : Event) : Bool := e.sequence != 0 && e.sequence == f.sequence

/-- The text of an event: its name, and its parameters as documents. -/
def display (e : Event) : String :=
  if e.parameters.isEmpty then e.name
  else
    let parts := e.parameters.entries.map fun (k, v) => k ++ "=" ++ v.toJson.text
    e.name ++ "(" ++ ", ".intercalate parts ++ ")"

/-- The document of an event, as it is recorded. -/
def toRecord (e : Event) : Json :=
  .object [("name", .string e.name), ("parameters", (Value.ofParams e.parameters).toFloatJson),
    ("sequence_id", .nat e.sequence)]

/-- Reads an event. -/
def ofJson? (j : Json) : Option Event := do
  let fs ← Json.record? .json ["name", "parameters", "sequence_id", "created_at"] j
  let name ← fs.required? "name" Json.asString?
  let parameters ← fs.optional? "parameters" (Json.asTable? (some ∘ Value.ofJson)) Table.empty
  let sequence ← fs.optional? "sequence_id" Json.asNat? 0
  let _ ← fs.optional? "created_at"
    (fun j => j.asString?.bind fun s => if isTimestamp s then some () else none) ()
  return { name, parameters, sequence }

end Event

end Dialogue
