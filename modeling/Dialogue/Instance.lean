import Dialogue.Identifier
import Dialogue.Library

/-!
# Flow instances

An instance is one run of a flow: where it is in its program, its variables, and its place among
the other instances of a session. It either runs, or is suspended at a `select`, or has ended.

## Main definitions

* `Armed`, `Wait` — what a suspended instance waits for
* `Phase`, `Instance`
* `Instance.begin` — an instance that has not run yet
* `Instance.subtree` — an instance and what goes down with it
-/

namespace Dialogue

/-- What an arm of a suspended instance waits for. -/
inductive Armed where
  /-- An event that matches. -/
  | event
  /-- The end of another instance. -/
  | child (id : InstanceId)
  /-- The completion of a call. -/
  | call (id : CallId)
  deriving DecidableEq, Repr

namespace Armed

/-- How an armed arm is written. -/
def display : Armed → String
  | event => "event"
  | child id => id.display
  | call id => id.display

end Armed

/-- Where an instance is suspended, and what for. -/
structure Wait where
  /-- The place of the `select` in the program. -/
  select : Nat
  /-- What its arms wait for, arm by arm. -/
  arms : List Armed
  /-- The timer that limits the wait. -/
  timer : Option TimerId
  deriving DecidableEq, Repr

/-- Where an instance is in its life. -/
inductive Phase where
  /-- It has something to do. -/
  | running
  /-- It is suspended. -/
  | waiting (wait : Wait)
  /-- It has come to the end of its body. -/
  | completed
  /-- It was ended early. -/
  | aborted (reason : String)
  deriving DecidableEq, Repr

namespace Phase

/-- The name of a phase. -/
def name : Phase → String
  | running => "active"
  | waiting _ => "waiting"
  | completed => "completed"
  | aborted _ => "aborted"

/-- Whether an instance in this phase has not ended yet. -/
def isLive : Phase → Bool
  | running | waiting _ => true
  | completed | aborted _ => false

end Phase

/-- One run of a flow. -/
structure Instance where
  /-- The identifier. -/
  id : InstanceId
  /-- The flow that is run. -/
  flow : CompiledFlow
  /-- Where it is in the program. -/
  pc : Nat
  /-- Its variables. -/
  locals : Params
  /-- The instance that started it. -/
  parent : Option InstanceId
  /-- The live instances that it started and that may not outlive it, oldest first. -/
  children : List InstanceId
  /-- Whether it may outlive the instance that started it. -/
  isDetached : Bool
  /-- How many instances stand above it. -/
  depth : Nat
  /-- Where it is in its life. -/
  phase : Phase

namespace Instance

/-- The name of the flow. -/
def flowName (i : Instance) : String := i.flow.definition.name

/-- An instance at the start of its flow. Parameters without an argument are null, and arguments
that are no parameters are dropped. -/
def begin (id : InstanceId) (flow : CompiledFlow) (args : Params) (parent : Option InstanceId)
    (depth : Nat) (isDetached : Bool) : Instance where
  id
  flow
  pc := 0
  locals := Table.ofList (flow.definition.parameters.map fun p => (p, args.getD p .null))
  parent
  children := []
  isDetached
  depth
  phase := .running

/-- What the instance is suspended for. -/
def wait? (i : Instance) : Option Wait :=
  match i.phase with
  | .waiting w => some w
  | _ => none

/-- Whether the instance is suspended. -/
def isWaiting (i : Instance) : Bool := i.wait?.isSome

/-- Whether the instance has something to do. -/
def isRunning (i : Instance) : Bool := i.phase == .running

/-- The `select` at which the instance is suspended. -/
def select? (i : Instance) : Option Select :=
  match i.wait?.bind fun w => i.flow.program.get? w.select with
  | some (.select s) => some s
  | _ => none

/-- Why the instance was ended early. -/
def outcome? (i : Instance) : Option String :=
  match i.phase with
  | .aborted reason => some reason
  | _ => none

/-- Whether a variable is a parameter of the flow. -/
def isParameter (i : Instance) (name : String) : Bool := i.flow.definition.parameters.contains name

/-- The name of the flow and the identifier. -/
def label (i : Instance) : String := s!"{i.flowName} ({i.id.display})"

/-- The first live instance of a list, and what stands behind it. -/
def firstLive? (live : Table InstanceId Instance) :
    List InstanceId → Option (InstanceId × Instance × List InstanceId)
  | [] => none
  | id :: rest =>
    match live.get? id with
    | some i => some (id, i, rest)
    | none => firstLive? live rest

theorem get?_of_firstLive? {live : Table InstanceId Instance} {id : InstanceId} {i : Instance}
    {rest : List InstanceId} : ∀ {ids : List InstanceId},
    firstLive? live ids = some (id, i, rest) → live.get? id = some i
  | id' :: ids, h => by
    unfold firstLive? at h
    split at h
    · next heq =>
      cases h
      exact heq
    · exact get?_of_firstLive? h

/-- The live instances of a list, each followed by those that may not outlive it. An instance that
has been listed is not looked at again. -/
def subtree (live : Table InstanceId Instance) (ids : List InstanceId) : List InstanceId :=
  match _h : firstLive? live ids with
  | none => []
  | some (id, i, rest) => id :: subtree (live.erase id) (i.children ++ rest)
termination_by live.size
decreasing_by exact Table.size_erase_lt (get?_of_firstLive? _h)

end Instance

end Dialogue
