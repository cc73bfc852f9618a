import Dialogue.Identifier

/-!
# Notices

A session keeps a log of what happens inside it, for observers who do not take part.

## Main definitions

* `Notice`
-/

namespace Dialogue

/-- Something that happened inside a session. -/
inductive Notice where
  /-- The session was opened with its main flows. -/
  | sessionOpened (mainFlows : List String)
  /-- The session was closed. -/
  | sessionClosed (reason : String)
  /-- An instance began. -/
  | flowStarted (id : InstanceId) (flow : String) (depth : Nat)
  /-- An instance came to the end of its body. -/
  | flowCompleted (id : InstanceId) (flow : String)
  /-- An instance was ended early. -/
  | flowAborted (id : InstanceId) (flow reason : String)
  /-- An instance was not heard because another one spoke. -/
  | botActionDeferred (id : InstanceId) (event : String) (winner : InstanceId)
  /-- A call was made. -/
  | actionDispatched (call : CallId) (action : String) (id : InstanceId)
  /-- The result of a call came too late to be of use. -/
  | completionDiscarded (call : CallId)
  deriving DecidableEq, Repr

end Dialogue
