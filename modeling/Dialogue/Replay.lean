import Dialogue.Action
import Dialogue.Script
import Dialogue.Session

/-!
# Replays

A replay plays a script against a session and writes down what is said. Its time is that of the
script: a wait fires the timers that are due on the way, each at its own deadline. Actions are run
as soon as they are asked for, one after the other, and their results are taken in before the
script goes on. The clock that actions run on ticks in milliseconds.

## Main definitions

* `Replay`, `ReplayError`
* `Replay.record` — writing down a turn and all that follows from it
* `Replay.start`, `Replay.step`, `Replay.play`
-/

namespace Dialogue

/-- Why a replay cannot go on. -/
inductive ReplayError where
  /-- The session refused an input. -/
  | session (e : SessionError)
  /-- A wait would end after the last instant. -/
  | waitOutOfRange (d : Duration)
  /-- A step does not come to an end. -/
  | endless

/-- A duration in seconds. -/
def Duration.secondsText (d : Duration) : String := Decimal.Layout.plain.float d.toFloat ++ "s"

namespace ReplayError

/-- The wording of what stops a replay. -/
def message : ReplayError → String
  | session e => e.message
  | waitOutOfRange d => s!"wait of {d.secondsText} is out of range"
  | endless => "step does not come to an end"

end ReplayError

/-- A session that is driven by a script. -/
structure Replay where
  /-- The session. -/
  session : Session
  /-- The actions that it may call. -/
  actions : Registry
  /-- How long an action may take. -/
  actionTimeout : Duration
  /-- Whether what is said is written down as documents. -/
  isJson : Bool
  /-- How many turns a step may take. -/
  patience : Nat
  /-- The time that actions have taken. -/
  elapsed : Instant
  /-- What has been written down. -/
  transcript : Array String
  /-- Whether the session had to be discarded. -/
  isDiscarded : Bool

namespace Replay

/-- A replay of a session that has not been started. -/
def new (session : Session) (actions : Registry) (actionTimeout : Duration) (isJson : Bool)
    (patience : Nat) : Replay where
  session
  actions
  actionTimeout
  isJson
  patience
  elapsed := .zero
  transcript := #[]
  isDiscarded := false

/-- Writes down a line. -/
def note (r : Replay) (line : String) : Replay := { r with transcript := r.transcript.push line }

/-- The lines of a turn. -/
def turnLines (isJson : Bool) (t : Turn) : List String :=
  if isJson then t.emitted.map (fun e => e.toRecord.text) ++ t.failureLines else t.lines

/-- Writes down a turn. -/
def print (r : Replay) (t : Turn) : Replay := (turnLines r.isJson t).foldl note r

/-- Runs the actions that are asked for, one after the other, and takes in their results. -/
def answer (r : Replay) : List ActionRequest → Replay × Except ReplayError (List Turn)
  | [] => (r, .ok [])
  | request :: rest =>
    let a := (r.actions.run request.action request.params).within request.action r.actionTimeout
    let elapsed := (r.elapsed.add a.delay).nextTick
    match (r.session.tick elapsed).completeCall request.call a.result with
    | .error e => ({ r with elapsed, session := r.session.tick elapsed }, .error (.session e))
    | .ok (turn, session) =>
      match ({ r with elapsed, session } : Replay).answer rest with
      | (r, .error e) => (r, .error e)
      | (r, .ok turns) => (r, .ok (turn :: turns))

/-- Writes down turns and all that follows from the actions that they ask for. -/
def recordAll : Nat → List Turn → Replay → Replay × Option ReplayError
  | _, [], r => (r, none)
  | 0, _ :: _, r => (r, some .endless)
  | patience + 1, turn :: pending, r =>
    let r := r.print turn
    if turn.isFatal then ({ r with isDiscarded := true }, none)
    else
      let (requests, session) := r.session.takeRequests
      match ({ r with session } : Replay).answer requests with
      | (r, .error e) => (r, some e)
      | (r, .ok turns) => recordAll patience (pending ++ turns) r

/-- Writes down what came of an input, and all that follows from it. -/
def record (r : Replay) : Except SessionError (Turn × Session) → Replay × Option ReplayError
  | .error e => (r, some (.session e))
  | .ok (turn, session) => recordAll r.patience [turn] { r with session }

/-- Starts the main flows. -/
def start (r : Replay) (mainFlows : List String) : Replay × Option ReplayError :=
  r.record (r.session.start mainFlows)

/-- Fires the timers that are due up to an instant, each at its deadline. -/
def fireUntil (target : Instant) : Nat → Replay → Replay × Option ReplayError
  | fuel, r =>
    match r.session.nextDeadline? with
    | none => (r, none)
    | some deadline =>
      if target < deadline || r.isDiscarded then (r, none)
      else
        match fuel with
        | 0 => (r, some .endless)
        | fuel + 1 =>
          match r.record (r.session.fireTimers deadline) with
          | (r, some e) => (r, some e)
          | (r, none) => fireUntil target fuel r

/-- Lets time pass. Deadlines at different instants are no more than there are nanoseconds on the
way; a timeout that takes no time is due again at once, so the firings at one instant count as
turns. -/
def wait (r : Replay) (d : Duration) : Replay × Option ReplayError :=
  match r.session.clock.add? d with
  | none => (r, some (.waitOutOfRange d))
  | some target =>
    match fireUntil target (r.patience + target.nanos + 1) r with
    | (r, some e) => (r, some e)
    | (r, none) => if r.isDiscarded then (r, none) else r.record (r.session.fireTimers target)

/-- Plays a step. There is nothing to do for a session that had to be discarded. -/
def step (r : Replay) (s : ScriptStep) : Replay × Option ReplayError :=
  if r.isDiscarded then (r, none)
  else
    match s with
    | .say text =>
      let r := r.note ("> " ++ text)
      r.record (r.session.submit (Event.userSaid text))
    | .raise e =>
      let r := r.note ("> [" ++ e.display ++ "]")
      r.record (r.session.submit e)
    | .wait d => (r.note ("> (wait " ++ d.secondsText ++ ")")).wait d

/-- Plays steps until one of them fails. -/
def steps (r : Replay) : List ScriptStep → Replay × Option ReplayError
  | [] => (r, none)
  | s :: rest =>
    match r.step s with
    | (r, some e) => (r, some e)
    | (r, none) => r.steps rest

/-- Starts the main flows and plays a script. -/
def play (r : Replay) (mainFlows : List String) (script : List ScriptStep) :
    Replay × Option ReplayError :=
  match r.start mainFlows with
  | (r, some e) => (r, some e)
  | (r, none) => r.steps script

end Replay

end Dialogue
