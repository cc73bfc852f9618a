import Dialogue.Session.State

/-!
# The life of an instance

Every instance begins with a notice and a `FlowStarted` event, and ends with a notice and either a
`FlowFinished` or a `FlowFailed` event. What an instance has started goes down with it, unless it is
detached; a detached instance then stands on its own.

## Main definitions

* `Cascade.spawn` — a new instance
* `Cascade.complete` — the end of a body
* `Cascade.abort`, `Cascade.terminate` — ending an instance early, and what goes down with it
-/

namespace Dialogue.Cascade

/-- Creates an instance of a flow, below another one or on its own. It does not run yet. -/
def spawn (c : Cascade) (flow : String) (args : Params) (parent : Option InstanceId)
    (isDetached : Bool) : Option (InstanceId × Cascade) :=
  match c.library.get? flow with
  | none => none
  | some compiled =>
    let id : InstanceId := ⟨c.created + 1⟩
    let depth := match parent.bind c.instances.get? with
      | some p => p.depth + 1
      | none => 0
    let linked := match parent, isDetached with
      | some p, false => c.instances.modify p fun i => { i with children := i.children ++ [id] }
      | _, _ => c.instances
    let c := { c with created := c.created + 1, instances := linked }
    let c := c.notify (.flowStarted id flow depth)
    let c := { c with
      instances := c.instances.insert id (Instance.begin id compiled args parent depth isDetached) }
    some (id, c.produce none (Event.of EventName.flowStarted
      [("flow", .string flow), ("instance_id", .ofNat id.number)]))

/-- Cuts the links to an instance that has ended. -/
def unlink (c : Cascade) (ended : Instance) : Cascade :=
  { c with instances := c.instances.map fun id i =>
      let i := if ended.parent = some id then
        { i with children := i.children.filter (· ≠ ended.id) } else i
      if i.isDetached && i.parent = some ended.id then { i with parent := none } else i }

/-- Remembers an instance that has ended. -/
def retire (c : Cascade) (ended : Instance) : Cascade :=
  { c with archive := (c.archive.insert ended.id ended).keepLast c.limits.archiveSize }

/-- Ends an instance early. Its timer and its calls go with it. -/
def abort (c : Cascade) (id : InstanceId) (error : FlowError) : Cascade :=
  match c.instances.get? id with
  | none => c
  | some i =>
    let reason := error.message
    let timers := match i.wait?.bind Wait.timer with
      | some timer => c.timers.cancel timer
      | none => c.timers
    let c := { c with
      instances := c.instances.erase id, timers, calls := c.calls.cancelOwned id }
    let c := c.unlink i
    let c := c.notify (.flowAborted id i.flowName reason)
    let c := c.produce none (Event.of EventName.flowFailed
      [("flow", .string i.flowName), ("instance_id", .ofNat id.number),
        ("reason", .string reason)])
    c.retire { i with phase := .aborted reason }

/-- Ends an instance early, and what it has started. Only the instance itself is reported, and only
if that is wanted. -/
def terminate (c : Cascade) (root : InstanceId) (error : FlowError) (isReported : Bool) : Cascade :=
  match c.instances.get? root with
  | none => c
  | some i =>
    let failures := if isReported then c.failures.push ⟨root, i.flowName, error⟩ else c.failures
    let doomed := Instance.subtree c.instances [root]
    doomed.foldl (fun c id =>
      c.abort id (if id = root then error else .parentTerminated i.label)) { c with failures }

/-- Ends instances early, one after the other, without reporting them. -/
def terminateAll (c : Cascade) (ids : List InstanceId) (error : FlowError) : Cascade :=
  ids.foldl (fun c id => c.terminate id error false) c

/-- Ends an instance that has come to the end of its body. What it has started is ended early. -/
def complete (c : Cascade) (id : InstanceId) : Cascade :=
  match c.instances.get? id with
  | none => c
  | some i =>
    let c := { c with instances := c.instances.erase id }
    let c := c.unlink i
    let c := c.notify (.flowCompleted id i.flowName)
    let c := c.produce none (Event.of EventName.flowFinished
      [("flow", .string i.flowName), ("instance_id", .ofNat id.number)])
    let c := c.retire { i with phase := .completed }
    -- What it has started goes last, so its own end comes first in the order of events.
    c.terminateAll i.children (.parentTerminated i.label)

end Dialogue.Cascade
