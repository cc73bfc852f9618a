import Dialogue.Identifier
import Dialogue.Value

/-!
# Action calls

A session does not run actions itself. It notes who waits for a call and queues a request for
whoever drives the session; the result comes back under the identifier of the call. A call that
nobody waits for any more is withdrawn if its request is still queued. Otherwise it is remembered
as cancelled, so that its result can be told from that of an unknown call.

## Main definitions

* `ActionRequest`, `Call`, `Calls`
* `Calls.start`, `Calls.takeRequests`, `Calls.complete`
* `Calls.cancel`, `Calls.cancelOwned`
-/

namespace Dialogue

/-- A wish that an action be run. -/
structure ActionRequest where
  /-- The call that the result belongs to. -/
  call : CallId
  /-- The name of the action. -/
  action : String
  /-- Its parameters. -/
  params : Params

/-- A call whose result has not come yet. -/
structure Call where
  /-- The instance that waits for the result. -/
  owner : InstanceId
  /-- The name of the action. -/
  action : String
  /-- Whether the result has become useless. -/
  isCancelled : Bool

/-- What becomes of a result. -/
inductive Completion where
  /-- An instance waits for it. -/
  | deliver (owner : InstanceId) (action : String)
  /-- The instance that waited for it is gone. -/
  | discard (action : String)
  /-- There is no such call, or it has had its result. -/
  | unknown

/-- The calls of a session. -/
structure Calls where
  /-- The calls whose result has not come. -/
  pending : Table CallId Call
  /-- The requests that have not been taken, oldest first. -/
  queue : List ActionRequest
  /-- How many calls there have been. -/
  issued : Nat

namespace Calls

/-- No calls. -/
def none : Calls := ⟨∅, [], 0⟩

instance : Inhabited Calls := ⟨none⟩

/-- Notes a call under a new identifier and queues its request. -/
def start (c : Calls) (owner : InstanceId) (action : String) (params : Params) : CallId × Calls :=
  let id : CallId := ⟨c.issued + 1⟩
  (id, ⟨c.pending.insert id ⟨owner, action, false⟩, c.queue ++ [⟨id, action, params⟩],
    c.issued + 1⟩)

/-- Takes the queued requests. -/
def takeRequests (c : Calls) : List ActionRequest × Calls := (c.queue, { c with queue := [] })

/-- Settles what becomes of a result. A call has one result at most. -/
def complete (c : Calls) (id : CallId) : Completion × Calls :=
  match c.pending.get? id with
  | .none => (.unknown, c)
  | some call =>
    (if call.isCancelled then .discard call.action else .deliver call.owner call.action,
      { c with pending := c.pending.erase id })

/-- Cancels a call. One whose request is still queued leaves no trace. -/
def cancel (c : Calls) (id : CallId) : Calls :=
  if c.queue.any fun r => r.call = id then
    { c with queue := c.queue.filter fun r => r.call ≠ id, pending := c.pending.erase id }
  else
    { c with pending := c.pending.modify id fun call => { call with isCancelled := true } }

/-- The calls that an instance waits for. -/
def owned (c : Calls) (owner : InstanceId) : List CallId :=
  (c.pending.filter fun _ call => call.owner = owner && !call.isCancelled).keys

/-- Cancels the calls that an instance waits for. -/
def cancelOwned (c : Calls) (owner : InstanceId) : Calls := (c.owned owner).foldl cancel c

/-- Forgets all calls. -/
def clear (c : Calls) : Calls := { c with pending := ∅, queue := [] }

/-- The number of calls whose result is still of use. -/
def inFlight (c : Calls) : Nat := (c.pending.filter fun _ call => !call.isCancelled).size

end Calls

end Dialogue
