import Dialogue.Duration
import Dialogue.Value

/-!
# What can go wrong

A flow error ends one flow instance and no other; an action error is reported to the flow that
waits for the action; a session error is the answer to a request that could not be served.

## Main definitions

* `FlowError`, `ActionError`, `SessionError` — the causes
* `FlowError.message`, `ActionError.message`, `SessionError.message` — their wording
-/

namespace Dialogue

/-- Why a flow instance was ended before its body was finished. -/
inductive FlowError where
  /-- An expression reads a variable that has no value. -/
  | unbound (name : String)
  /-- A constraint of an event pattern reads a variable that has no value. -/
  | unboundInPattern (pattern name : String)
  /-- A comparison in a condition reads a variable that has no value. -/
  | unboundInCondition (name : String)
  /-- A timeout would fire after the last instant. -/
  | timeoutOutOfRange (after : Duration)
  /-- A timeout fired where the flow has nothing to do about it. -/
  | timeoutUnhandled
  /-- A parameter would be bound to a second value. -/
  | bindingConflict (name : String) (existing incoming : Value)
  /-- An awaited action or flow failed where the flow has nothing to do about it. -/
  | actionFailed (action reason : String)
  /-- An activation took too many steps. -/
  | stepLimit (limit : Nat)
  /-- A flow that is not in the library was to be started. -/
  | unknownFlow (name : String)
  /-- The flow aborted itself, or was asked to stop. -/
  | stopped (reason : String)
  /-- The instance that started this one has ended. -/
  | parentTerminated (parent : String)

namespace FlowError

/-- The wording of a flow error. -/
def message : FlowError → String
  | unbound name => s!"Pattern error: unbound variable ${name}"
  | unboundInPattern pattern name =>
    s!"Pattern error: pattern {pattern} references unbound variable ${name}"
  | unboundInCondition name => s!"Pattern error: unbound variable ${name} in condition"
  | timeoutOutOfRange after => s!"Pattern error: timeout of {after.text} is out of range"
  | timeoutUnhandled => "Pattern error: timeout fired without a handler"
  | bindingConflict name existing incoming =>
    s!"Binding conflict on ${name}: bound to {existing.display}, got {incoming.display}"
  | actionFailed action reason => s!"Unhandled failure of {action}: {reason}"
  | stepLimit limit => s!"Activation exceeded {limit} steps without blocking"
  | unknownFlow name => s!"Unknown flow: {name}"
  | stopped reason => s!"Stopped: {reason}"
  | parentTerminated parent => s!"Parent {parent} terminated"

end FlowError

/-- Why an action has no result. -/
inductive ActionError where
  | notFound (action : String)
  | executionFailed (action reason : String)
  | timeout (action : String) (seconds : Nat)
  | invalidArguments (reason : String)
  deriving DecidableEq

namespace ActionError

/-- The wording of an action error. -/
def message : ActionError → String
  | notFound action => s!"Action not found: {action}"
  | executionFailed action reason => s!"Action execution failed: {action}: {reason}"
  | timeout action seconds => s!"Action timed out: {action} after {seconds}s"
  | invalidArguments reason => s!"Invalid action arguments: {reason}"

end ActionError

/-- Why a session did not serve a request. -/
inductive SessionError where
  /-- The session is beyond repair and has to be discarded. -/
  | unreachableState (detail : String)
  | sessionNotFound (session : String)
  | sessionClosed (session : String)
  | unknownFlow (name : String)
  deriving DecidableEq

namespace SessionError

/-- The wording of a session error. -/
def message : SessionError → String
  | unreachableState detail => s!"Unreachable state: {detail}"
  | sessionNotFound session => s!"Session not found: {session}"
  | sessionClosed session => s!"Session closed: {session}"
  | unknownFlow name => s!"Unknown flow: {name}"

/-- Whether the session that met the error has to be discarded. -/
def isFatal : SessionError → Bool
  | unreachableState _ => true
  | _ => false

end SessionError

end Dialogue
