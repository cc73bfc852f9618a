import Dialogue.Action
import Dialogue.Session

/-!
# Hosts

A host keeps many sessions on one clock. It runs the actions that they ask for and hands the results
back, and it fires their timers. What is due at one instant is dealt with in a fixed order: timeouts
come before results, and what has been waiting longer comes first. The clock ticks in milliseconds.

A turn that follows from an input of the caller is the answer to that input. All other turns are
published, unless there is nothing to show. A session whose turn was fatal is not run any more: it
is dropped if the turn was an answer, and otherwise stays known until the caller destroys it.

## Main definitions

* `Host`, `Resident`, `Job`
* `Host.create`, `Host.submit`, `Host.destroy` — inputs of the caller
* `Host.runUntil` — letting time pass
-/

namespace Dialogue

/-- An action that is being run. -/
structure Job where
  /-- The call that the result belongs to. -/
  call : CallId
  /-- When the result is there. -/
  due : Instant
  /-- The place of the job among all things that have begun to wait. -/
  order : Nat
  /-- The result. -/
  result : Except ActionError Value

/-- A session that a host knows. -/
structure Resident where
  /-- The session. -/
  session : Session
  /-- The actions that are being run for it. -/
  jobs : List Job
  /-- Whether it is not run any more. -/
  isStopped : Bool
  /-- The place of the session among all things that have begun to wait. -/
  order : Nat
  /-- The turns that have been published and not taken yet. -/
  published : Array Turn

/-- Many sessions on one clock. -/
structure Host where
  /-- The flows that may be started. -/
  library : FlowLibrary
  /-- The actions that may be called. -/
  actions : Registry
  /-- The bounds of each session. -/
  limits : Limits
  /-- How long an action may take. -/
  actionTimeout : Duration
  /-- How many results and timeouts are dealt with at a time. -/
  patience : Nat
  /-- The time. -/
  now : Instant
  /-- The sessions that are known, by number. -/
  residents : Table Nat Resident
  /-- How many sessions have been opened. -/
  opened : Nat
  /-- How many things have begun to wait. -/
  waited : Nat
  /-- What observers have not been told yet, oldest first. -/
  notices : Array Notice

/-- Something that a host has to deal with. -/
inductive Due where
  /-- A timer of a session. -/
  | timeout
  /-- The result of an action. -/
  | result (j : Job)

/-- Something that a host has to deal with, and when. -/
structure Appointment where
  /-- When. -/
  time : Instant
  /-- The place among all things that have begun to wait. -/
  order : Nat
  /-- The number of the session. -/
  session : Nat
  /-- What. -/
  due : Due

namespace Appointment

/-- The place of an appointment at its instant: timeouts come first. -/
def rank (a : Appointment) : Nat :=
  match a.due with
  | .timeout => 0
  | .result _ => 1

/-- Whether the first of two appointments comes before the second. -/
def isBefore (a b : Appointment) : Bool :=
  a.time < b.time ||
    (a.time = b.time && (a.rank < b.rank || (a.rank = b.rank && a.order < b.order)))

/-- The first of several appointments. -/
def first? : List Appointment → Option Appointment
  | [] => none
  | a :: rest =>
    match first? rest with
    | some b => some (if b.isBefore a then b else a)
    | none => some a

end Appointment

namespace Resident

/-- What a host has to deal with for a session. -/
def appointments (number : Nat) (r : Resident) : List Appointment :=
  if r.isStopped then []
  else
    (r.session.nextDeadline?.map fun t => ⟨t.nextTick, r.order, number, .timeout⟩).toList
      ++ r.jobs.map fun j => ⟨j.due, j.order, number, .result j⟩

end Resident

namespace Host

/-- A host without sessions. -/
def new (library : FlowLibrary) (actions : Registry) (limits : Limits) (actionTimeout : Duration)
    (patience : Nat) : Host where
  library
  actions
  limits
  actionTimeout
  patience
  now := .zero
  residents := ∅
  opened := 0
  waited := 0
  notices := #[]

/-- Stores a session, and passes its notices on. -/
def store (h : Host) (number : Nat) (r : Resident) : Host :=
  let (notices, session) := r.session.takeNotices
  { h with
    residents := h.residents.insert number { r with session, order := h.waited }
    waited := h.waited + 1
    notices := h.notices ++ notices.toArray }

/-- Begins to run the actions that a session asks for. -/
def dispatch (h : Host) (r : Resident) : Host × Resident :=
  let (requests, session) := r.session.takeRequests
  let jobs := requests.zipIdx.map fun (request, i) =>
    let a := (h.actions.run request.action request.params).within request.action h.actionTimeout
    ⟨request.call, (h.now.add a.delay).nextTick, h.waited + i, a.result⟩
  ({ h with waited := h.waited + requests.length }, { r with session, jobs := r.jobs ++ jobs })

/-- Takes in a turn that is not an answer to an input of the caller. -/
def publish (h : Host) (number : Nat) (r : Resident) :
    Except SessionError (Turn × Session) → Host
  | .error _ => h.store number { r with isStopped := true }
  | .ok (turn, session) =>
    let (h, r) := h.dispatch { r with session }
    let published := if turn.isQuiet then r.published else r.published.push turn
    h.store number { r with published, isStopped := turn.isFatal }

/-- Keeps an appointment. -/
def keep (h : Host) (a : Appointment) : Host :=
  let h := { h with now := h.now.max a.time }
  match h.residents.get? a.session with
  | none => h
  | some r =>
    let session := r.session.tick h.now
    match a.due with
    | .timeout => h.publish a.session r (session.fireTimers h.now)
    | .result j =>
      let r := { r with jobs := r.jobs.filter fun k => k.call ≠ j.call }
      h.publish a.session r (session.completeCall j.call j.result)

/-- What has to be dealt with next. -/
def next? (h : Host) : Option Appointment :=
  Appointment.first? (h.residents.entries.flatMap fun (number, r) => r.appointments number)

/-- Keeps the appointments up to an instant, as many as there is patience for. -/
def keepUntil (target : Instant) : Nat → Host → Host
  | 0, h => h
  | patience + 1, h =>
    match h.next? with
    | none => h
    | some a => if target < a.time then h else keepUntil target patience (h.keep a)

/-- Lets time pass up to an instant. -/
def runUntil (h : Host) (target : Instant) : Host :=
  let h := keepUntil target h.patience h
  { h with now := h.now.max target }

/-- Deals with what is due now. -/
def settle (h : Host) : Host := h.runUntil h.now

/-- Lets time pass. -/
def sleep (h : Host) (d : Duration) : Host := h.runUntil (h.now.add d.wait).nextTick

/-- Opens a session with its main flows. One whose first turn is fatal is given a number, but it is
not kept. -/
def create (h : Host) (mainFlows : List String) (context : Params) :
    Except SessionError (Turn × Host) := do
  let number := h.opened
  let session := (Session.new (toString number) h.library h.limits context).tick h.now
  let (turn, session) ← session.start mainFlows
  let h := { h with opened := h.opened + 1 }
  let r : Resident := ⟨session, [], false, 0, #[]⟩
  if turn.isFatal then
    let h := h.store number r
    return (turn, { h with residents := h.residents.erase number })
  else
    let (h, r) := h.dispatch r
    return (turn, h.store number r)

/-- Gives an event to a session. -/
def submit (h : Host) (number : Nat) (e : Event) : Except SessionError (Turn × Host) :=
  match h.residents.get? number with
  | none => .error (.sessionNotFound (toString number))
  | some r =>
    if r.isStopped then .error (.sessionClosed r.session.name)
    else
      match (r.session.tick h.now).submit e with
      | .error err => .error err
      | .ok (turn, session) =>
        let (h, r) := h.dispatch { r with session }
        let h := h.store number r
        .ok (turn, if turn.isFatal then { h with residents := h.residents.erase number } else h)

/-- Closes a session, unless it has stopped, and forgets it. -/
def destroy (h : Host) (number : Nat) : Except SessionError Host :=
  match h.residents.get? number with
  | none => .error (.sessionNotFound (toString number))
  | some r =>
    let session := if r.isStopped then r.session else r.session.close "destroyed"
    let h := h.store number { r with session }
    .ok { h with residents := h.residents.erase number }

/-- Whether the turns of a session can be followed. -/
def subscribe (h : Host) (number : Nat) : Except SessionError Unit :=
  if h.residents.contains number then .ok () else .error (.sessionNotFound (toString number))

/-- Takes the turns that a session has published. -/
def takeTurns (h : Host) (number : Nat) : List Turn × Host :=
  match h.residents.get? number with
  | none => ([], h)
  | some r =>
    let residents := h.residents.insert number { r with published := #[] }
    (r.published.toList, { h with residents })

/-- Takes the notices that have gathered. -/
def takeNotices (h : Host) : List Notice × Host := (h.notices.toList, { h with notices := #[] })

end Host

end Dialogue
