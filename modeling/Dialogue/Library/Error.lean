import Dialogue.Condition.Token

/-!
# What can be wrong with flow definitions

## Main definitions

* `EventKind` — how a session treats events of a name
* `DefinitionError` — the causes, and their wording
-/

namespace Dialogue

/-- How a session treats the events of a name. -/
inductive EventKind where
  /-- Raised by the outside world. -/
  | input
  /-- Meant for the user; of several speakers one is heard. -/
  | output
  /-- Exchanged between flows and the session. -/
  | internal
  deriving DecidableEq, Repr, Inhabited

namespace EventKind

/-- The name of a kind in files. -/
def name : EventKind → String
  | input => "input"
  | output => "output"
  | internal => "internal"

/-- The name of a kind in messages. -/
def label : EventKind → String
  | input => "Input"
  | output => "Output"
  | internal => "Internal"

/-- The kind of a name. -/
def ofName? : String → Option EventKind
  | "input" => some input
  | "output" => some output
  | "internal" => some internal
  | _ => none

end EventKind

/-- What can be wrong with one flow, beyond its references. -/
inductive InvalidReason where
  | emptyEventName
  | invalidVariable (name : String)
  | noBranches
  | timeoutBodyWithoutTimeout
  | timeoutNotPositive (seconds : Float)
  | timeoutTooLong (seconds : Float)

/-- What can be wrong with flow definitions. -/
inductive DefinitionError where
  | emptyName
  | duplicateFlow (name : String)
  | duplicateParameter (flow parameter : String)
  | unknownEvent (flow event : String)
  | unknownFlow (flow target : String)
  | unknownParameter (flow target parameter : String)
  | unknownAction (flow action : String)
  /-- A branch does not begin by waiting for something. -/
  | nonBlockingLead (flow : String)
  /-- A loop may run for ever without waiting. -/
  | nonBlockingLoop (flow : String)
  | invalid (flow : String) (reason : InvalidReason)
  | conflictingEventKind (name : String) (existing incoming : EventKind)
  | condition (source : String) (error : ConditionError)
  /-- A file is not there or cannot be read. -/
  | read (path reason : String)
  /-- A file does not hold flow definitions. -/
  | parse (path reason : String)

/-- The longest timeout, a year in seconds. -/
def maxTimeout : Float := 31536000

namespace InvalidReason

/-- The wording of what is wrong with a flow. -/
def message : InvalidReason → String
  | emptyEventName => "event name cannot be empty"
  | invalidVariable name => s!"invalid variable name '{name}'"
  | noBranches => "a choice needs at least one branch"
  | timeoutBodyWithoutTimeout => "on_timeout given without a timeout"
  | timeoutNotPositive seconds =>
    "wait_any timeout must be positive, got " ++ Decimal.Layout.plain.float seconds
  | timeoutTooLong seconds =>
    "wait_any timeout must be at most " ++ Decimal.Layout.plain.float maxTimeout
      ++ " seconds, got " ++ Decimal.Layout.plain.float seconds

end InvalidReason

namespace DefinitionError

/-- The wording of a mistake in flow definitions. -/
def message : DefinitionError → String
  | emptyName => "flow definition has an empty name"
  | duplicateFlow name => s!"flow '{name}' is defined more than once"
  | duplicateParameter flow parameter =>
    s!"flow '{flow}' declares parameter '{parameter}' more than once"
  | unknownEvent flow event => s!"flow '{flow}' references unknown event '{event}'"
  | unknownFlow flow target => s!"flow '{flow}' references unknown flow '{target}'"
  | unknownParameter flow target parameter =>
    s!"flow '{flow}' passes unknown parameter '{parameter}' to '{target}'"
  | unknownAction flow action => s!"flow '{flow}' calls unknown action '{action}'"
  | nonBlockingLead flow =>
    s!"flow '{flow}': every branch must start with match, await, or execute"
  | nonBlockingLoop flow => s!"flow '{flow}': repeat body can never block"
  | invalid flow reason => s!"flow '{flow}': {reason.message}"
  | conflictingEventKind name existing incoming =>
    s!"event '{name}' declared as {existing.label} and {incoming.label}"
  | condition source error => s!"invalid predicate '{source}': {error.message}"
  | read path reason => s!"failed to read flow file {path}: {reason}"
  | parse path reason => s!"failed to parse flow file {path}: {reason}"

end DefinitionError

end Dialogue
