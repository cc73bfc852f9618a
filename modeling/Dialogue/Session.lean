import Dialogue.Session.Settlement

/-!
# Sessions

A session takes in one input at a time: an event, the result of an action, the passing of time or a
wish to start or stop an instance. Each input is a turn. An input that is refused leaves the
session as it was.

## Main definitions

* `Session.start`, `Session.startFlow` — beginning instances
* `Session.submit`, `Session.completeCall`, `Session.fireTimers` — the inputs from outside
* `Session.abort`, `Session.close` — ending instances and the session
* `Session.takeRequests`, `Session.takeNotices` — what the session has for its surroundings
-/

namespace Dialogue

/-- An input is refused if the session has to be discarded or has been closed. -/
def Session.checkOpen (s : Session) : Except SessionError Unit :=
  match s.fault with
  | some fault => .error fault
  | none => if s.isClosed then .error (.sessionClosed s.name) else .ok ()

namespace Cascade

/-- Creates an instance that nothing stands above, and runs it. -/
def launch (c : Cascade) (flow : String) (args : Params) : Option (InstanceId × Cascade) :=
  (c.spawn flow args none false).map fun (id, c) => (id, c.activate id)

/-- Launches flows one after the other. -/
def launchAll : List String → Cascade → Except SessionError Cascade
  | [], c => .ok c
  | flow :: rest, c =>
    match c.launch flow ∅ with
    | none => .error (.unknownFlow flow)
    | some (_, c) => launchAll rest c

/-- Numbers an event and queues it. -/
def enqueue (c : Cascade) (e : Event) : Cascade :=
  let (e, c) := c.stamp e
  { c with queue := c.queue ++ [e] }

end Cascade

namespace Session

/-- Starts the main flows in order and runs the first turn. All of them have to be known. -/
def start (s : Session) (mainFlows : List String) : Except SessionError (Turn × Session) := do
  s.checkOpen
  if let some missing := mainFlows.find? fun name => !s.library.contains name then
    throw (.unknownFlow missing)
  let c ← s.openCascade.launchAll mainFlows
  return (c.notify (.sessionOpened mainFlows)).run

/-- Starts one more flow with arguments. -/
def startFlow (s : Session) (flow : String) (args : Params) :
    Except SessionError (InstanceId × Turn × Session) := do
  s.checkOpen
  match s.openCascade.launch flow args with
  | none => throw (.unknownFlow flow)
  | some (id, c) => return (id, c.run)

/-- Takes in an event. -/
def submit (s : Session) (e : Event) : Except SessionError (Turn × Session) := do
  s.checkOpen
  return (s.openCascade.enqueue e).run

/-- The event of a result. -/
def resultEvent (call : CallId) (action : String) : Except ActionError Value → Event
  | .ok v => Event.of EventName.actionFinished
      [("call_id", .ofNat call.number), ("action", .string action), ("result", v)]
  | .error e => Event.of EventName.actionFailed
      [("call_id", .ofNat call.number), ("action", .string action), ("error", .string e.message)]

/-- Takes in the result of a call. A result that nobody waits for has no consequences. -/
def completeCall (s : Session) (call : CallId) (result : Except ActionError Value) :
    Except SessionError (Turn × Session) := do
  s.checkOpen
  let (completion, calls) := s.calls.complete call
  let c := ({ s with calls } : Session).openCascade
  match completion with
  | .unknown => return c.run
  | .discard _ => return (c.notify (.completionDiscarded call)).run
  | .deliver _ action => return (c.enqueue (resultEvent call action result)).run

/-- The session at an instant, or later if it has been later. -/
def tick (s : Session) (now : Instant) : Session := { s with clock := s.clock.max now }

/-- The event of a timer. -/
def timeoutEvent (timer : TimerId) (owner : InstanceId) : Event :=
  Event.of EventName.timeout
    [("timer_id", .ofNat timer.number), ("instance_id", .ofNat owner.number)]

/-- Fires the timers that are due at an instant, the earliest first. The clock goes on to that
instant, but never back. -/
def fireTimers (s : Session) (now : Instant) : Except SessionError (Turn × Session) := do
  s.checkOpen
  let s := s.tick now
  let (due, timers) := s.timers.takeDue now
  let c := ({ s with timers } : Session).openCascade
  return (due.foldl (fun c (timer, owner) => c.enqueue (timeoutEvent timer owner)) c).run

/-- Ends an instance early, and what it has started. -/
def abort (s : Session) (id : InstanceId) (reason : String) :
    Except SessionError (Turn × Session) := do
  s.checkOpen
  return (s.openCascade.terminate id (.stopped reason) true).run

/-- Closes the session. Everything in it is dropped; closing it again has no effect. -/
def close (s : Session) (reason : String) : Session :=
  if s.isClosed then s
  else
    ({ s with
      isClosed := true
      instances := ∅
      archive := ∅
      timers := s.timers.clear
      calls := s.calls.clear } : Session).notify (.sessionClosed reason)

/-- Takes the requests for actions that have gathered. -/
def takeRequests (s : Session) : List ActionRequest × Session :=
  let (requests, calls) := s.calls.takeRequests
  (requests, { s with calls })

/-- Takes the notices that have gathered. -/
def takeNotices (s : Session) : List Notice × Session :=
  (s.notices.toList, { s with notices := #[] })

/-- The earliest instant at which a timer is due. -/
def nextDeadline? (s : Session) : Option Instant := s.timers.nextDeadline?

end Session

end Dialogue
