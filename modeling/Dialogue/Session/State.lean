import Dialogue.Calls
import Dialogue.Instance
import Dialogue.Notice
import Dialogue.Session.Turn
import Dialogue.Timers

/-!
# The state of a session

A session is one conversation: its instances, their calls and timers, and the variables that they
share. While a session deals with an input it is in a cascade: events that follow from the input
are queued behind it, and those produced since the last delivery are gathered until it is settled
who is heard.

## Main definitions

* `Limits`, `Session`
* `Produced`, `Cascade`
-/

namespace Dialogue

/-- Bounds that keep flows from running for ever. -/
structure Limits where
  /-- How many events a turn may deliver. -/
  cascadeSteps : Nat
  /-- How many instructions an activation may run. -/
  activationSteps : Nat
  /-- How many instances are remembered after their end. -/
  archiveSize : Nat
  deriving DecidableEq, Repr

/-- The usual bounds. -/
def Limits.standard : Limits := ⟨256, 10000, 1000⟩

/-- One conversation. -/
structure Session where
  /-- The name that the session goes by. -/
  name : String
  /-- The flows that may be started. -/
  library : FlowLibrary
  /-- The bounds. -/
  limits : Limits
  /-- The variables that all instances share. -/
  context : Params
  /-- The live instances. -/
  instances : Table InstanceId Instance
  /-- Instances that have ended. -/
  archive : Table InstanceId Instance
  /-- How many instances there have been. -/
  created : Nat
  /-- How many events have been numbered. -/
  sequenced : Nat
  /-- The timers of suspended instances. -/
  timers : Timers
  /-- The calls that instances wait for. -/
  calls : Calls
  /-- What observers have not been told yet, oldest first. -/
  notices : Array Notice
  /-- Why the session has to be discarded, if so. -/
  fault : Option SessionError
  /-- Whether the session has been closed. -/
  isClosed : Bool
  /-- The latest instant that the session knows of. -/
  clock : Instant

/-- An event before it is settled who is heard. -/
structure Produced where
  /-- The instance that sent the event, and its depth; none for what the session itself reports. -/
  speaker : Option (InstanceId × Nat)
  /-- The event. -/
  event : Event

/-- A session in the middle of a turn. -/
structure Cascade extends Session where
  /-- The events that have not been delivered, oldest first. -/
  queue : List Event
  /-- The events produced since the last delivery, oldest first. -/
  produced : Array Produced
  /-- What has been said to the user in this turn. -/
  emitted : Array Event
  /-- The instances that have failed in this turn. -/
  failures : Array Failure

namespace Session

/-- A session without instances. -/
def new (name : String) (library : FlowLibrary) (limits : Limits) (context : Params) : Session where
  name
  library
  limits
  context
  instances := ∅
  archive := ∅
  created := 0
  sequenced := 0
  timers := .none
  calls := .none
  notices := #[]
  fault := none
  isClosed := false
  clock := .zero

/-- Writes a notice into the log. -/
def notify (s : Session) (n : Notice) : Session := { s with notices := s.notices.push n }

/-- A live instance, or one that is remembered. -/
def find? (s : Session) (id : InstanceId) : Option Instance :=
  (s.instances.get? id).or (s.archive.get? id)

/-- Where the variables of an instance are looked up: among its own, then among the shared ones. -/
def scope (s : Session) (i : Instance) : Scope := fun name =>
  (i.locals.get? name).or (s.context.get? name)

/-- The beginning of a turn. -/
def openCascade (s : Session) : Cascade :=
  { s with queue := [], produced := #[], emitted := #[], failures := #[] }

end Session

namespace Cascade

/-- Writes a notice into the log. -/
def notify (c : Cascade) (n : Notice) : Cascade := { c with notices := c.notices.push n }

/-- Gathers an event. -/
def produce (c : Cascade) (speaker : Option (InstanceId × Nat)) (e : Event) : Cascade :=
  { c with produced := c.produced.push ⟨speaker, e⟩ }

/-- Changes a live instance. -/
def change (c : Cascade) (id : InstanceId) (f : Instance → Instance) : Cascade :=
  { c with instances := c.instances.modify id f }

/-- The end of a turn. -/
def finish (c : Cascade) : Turn × Session :=
  (⟨c.emitted.toList, c.failures.toList, c.instances.isEmpty, c.fault⟩, c.toSession)

end Cascade

end Dialogue
