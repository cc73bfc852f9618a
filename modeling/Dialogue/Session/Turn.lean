import Dialogue.Error
import Dialogue.Event
import Dialogue.Identifier

/-!
# Turns

A turn is what a session does with one input: it lasts until nothing more follows from it.

## Main definitions

* `Failure`, `Turn`
* `Turn.lines` — a turn as it is shown in a conversation
-/

namespace Dialogue

/-- An instance that was ended by an error of its own. -/
structure Failure where
  /-- The instance. -/
  id : InstanceId
  /-- The name of its flow. -/
  flow : String
  /-- The error. -/
  error : FlowError

/-- What came of one input. -/
structure Turn where
  /-- What was said to the user, in order. -/
  emitted : List Event
  /-- The instances that failed, in order. What they took down with them is not listed. -/
  failures : List Failure
  /-- Whether no instance is left. -/
  isFinished : Bool
  /-- Why the session has to be discarded, if so. -/
  fault : Option SessionError

namespace Turn

/-- What was said to the user in words. -/
def texts (t : Turn) : List String :=
  (t.emitted.filter fun e => e.name == EventName.botSay).filterMap Event.text?

/-- Whether the session has to be discarded. -/
def isFatal (t : Turn) : Bool := t.fault.isSome

/-- Whether there is nothing to show. -/
def isQuiet (t : Turn) : Bool := t.emitted.isEmpty && t.failures.isEmpty && t.fault.isNone

/-- The line of an event that is said to the user. -/
def eventLine (e : Event) : String :=
  match e.name == EventName.botSay, e.text? with
  | true, some text => "bot > " ++ text
  | _, _ => "bot > [" ++ e.display ++ "]"

/-- The line of a failure. -/
def failureLine (f : Failure) : String :=
  s!"! {f.flow} ({f.id.display}) failed: {f.error.message}"

/-- The lines about failures, of instances and of the session. -/
def failureLines (t : Turn) : List String :=
  t.failures.map failureLine ++ (t.fault.map fun e => "!! session discarded: " ++ e.message).toList

/-- A turn as it is shown in a conversation. -/
def lines (t : Turn) : List String := t.emitted.map eventLine ++ t.failureLines

end Turn

end Dialogue
