import Dialogue.Condition
import Dialogue.Pattern

/-!
# Statements

The body of a flow is a list of statements: expecting and sending events, starting and awaiting
other flows, calling actions, choices, loops, conditions and assignments.

## Main definitions

* `Statement` — one statement
* `Statement.kind`, `Statement.isBlocking`
* `Statement.suspendsIn` — whether a body cannot be run through without waiting or stopping
* `Statement.actionsIn` — the actions that a body calls
-/

namespace Dialogue

/-- A statement of a flow. -/
inductive Statement where
  /-- Waits for an event. -/
  | expect (pattern : Pattern)
  /-- Sends an event. -/
  | send (event : String) (params : Table String Expr)
  /-- Starts another flow and goes on. A detached flow outlives the one that started it. -/
  | start (flow : String) (args : Table String Expr) (isDetached : Bool)
  /-- Starts another flow and waits until it is finished; the handler runs if it fails. -/
  | await (flow : String) (args : Table String Expr) (onFailure : Option (List Statement))
  /-- Runs statements one after the other. -/
  | sequence (body : List Statement)
  /-- Waits for the first statement of any branch, then runs the rest of that branch. -/
  | alternative (branches : List (List Statement))
  /-- Runs a body for ever. -/
  | loop (body : List Statement)
  /-- A choice that may be given up after a number of seconds. -/
  | waitAny (branches : List (List Statement)) (timeout : Option Float)
      (onTimeout : List Statement)
  /-- Runs one of two bodies. -/
  | branch (condition : Condition) (thenBody elseBody : List Statement)
  /-- Gives a variable a value; a global one belongs to the session and not to the flow. -/
  | assign (var : String) (value : Expr) (isGlobal : Bool)
  /-- Calls an action and waits for its result; the handler runs if it fails. -/
  | execute (action : String) (params : Table String Expr) (result : Option String)
      (onFailure : Option (List Statement))
  /-- Stops the flow. -/
  | abort (reason : String)

namespace Statement

/-- The name of the kind of a statement. -/
def kind : Statement → String
  | expect _ => "match"
  | send .. => "send"
  | start .. => "start"
  | await .. => "await"
  | sequence _ => "sequence"
  | alternative _ => "alternative"
  | loop _ => "repeat"
  | waitAny .. => "wait_any"
  | branch .. => "if"
  | assign .. => "assign"
  | execute .. => "execute"
  | abort _ => "abort"

/-- Whether a statement begins by waiting for something. -/
def isBlocking : Statement → Bool
  | expect _ | await .. | execute .. | alternative _ | waitAny .. => true
  | _ => false

mutual

/-- Whether a statement cannot be run through without waiting or stopping. -/
def suspends : Statement → Bool
  | abort _ | expect _ | await .. | execute .. | alternative _ | waitAny .. => true
  | sequence body => suspendsIn body
  | loop body => suspendsIn body
  | branch _ thenBody elseBody => suspendsIn thenBody && suspendsIn elseBody
  | send .. | start .. | assign .. => false

/-- Whether a body cannot be run through without waiting or stopping. -/
def suspendsIn : List Statement → Bool
  | [] => false
  | s :: rest => suspends s || suspendsIn rest

end

mutual

/-- The actions that a statement calls, in the order in which they are written. -/
def actions : Statement → List String
  | execute action _ _ onFailure => action :: actionsInHandler onFailure
  | await _ _ onFailure => actionsInHandler onFailure
  | sequence body => actionsIn body
  | loop body => actionsIn body
  | alternative branches => actionsInBranches branches
  | waitAny branches _ onTimeout => actionsInBranches branches ++ actionsIn onTimeout
  | branch _ thenBody elseBody => actionsIn thenBody ++ actionsIn elseBody
  | expect _ | send .. | start .. | assign .. | abort _ => []

/-- The actions that a body calls. -/
def actionsIn : List Statement → List String
  | [] => []
  | s :: rest => actions s ++ actionsIn rest

/-- The actions that the branches of a choice call. -/
def actionsInBranches : List (List Statement) → List String
  | [] => []
  | b :: rest => actionsIn b ++ actionsInBranches rest

/-- The actions that a handler calls, if there is one. -/
def actionsInHandler : Option (List Statement) → List String
  | none => []
  | some body => actionsIn body

end

end Statement

/-- A named flow, with the names of its parameters in the order of their declaration. -/
structure FlowDefinition where
  /-- The name that other flows start it by. -/
  name : String
  /-- The parameters, in the order of their declaration. -/
  parameters : List String
  /-- A text for readers. -/
  description : String
  /-- What the flow does. -/
  body : List Statement

end Dialogue
