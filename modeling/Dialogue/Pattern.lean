import Dialogue.Event
import Dialogue.Expr
import Dialogue.Text.Quoted

/-!
# Event patterns

A pattern says which event a flow waits for: its name, and values for some of its parameters. A
value may be that of a variable. The more parameters a pattern fixes, the more specific it is. On a
match, parameters may be captured into variables.

## Main definitions

* `Constraint`, `Pattern` — what is expected of one parameter, and of an event
* `Pattern.specificity`, `Pattern.variableNames`, `Pattern.display`
* `Pattern.match?` — whether an event is expected, and what it binds
* `checkBindings` — whether new bindings keep the parameters of a flow as they are
-/

namespace Dialogue

/-- What is expected of one parameter of an event. -/
inductive Constraint where
  /-- The parameter equals a value. -/
  | literal (v : Value)
  /-- The parameter equals the value of a variable. -/
  | var (name : String)

/-- An expected event. -/
structure Pattern where
  /-- The name of the event. -/
  event : String
  /-- What is expected of its parameters. -/
  params : Table String Constraint
  /-- The variable that each captured parameter goes to. -/
  capture : Table String String
  /-- Whether the event is claimed for one instance alone. -/
  isExclusive : Bool

namespace Constraint

/-- A constraint in source form: a text that refers to a variable means its value. -/
def ofValue (v : Value) : Constraint :=
  match v.asString?.bind variableName? with
  | some name => .var name
  | none => .literal v

/-- The source form of a constraint. -/
def toValue : Constraint → Value
  | literal v => v
  | var name => .string ("$" ++ name)

/-- The text of a constraint. -/
def display : Constraint → String
  | literal (.string s) => Text.quoted s
  | literal v => v.display
  | var name => "$" ++ name

/-- The variable that a constraint reads. -/
def reads? : Constraint → Option String
  | literal _ => none
  | var name => some name

end Constraint

/-- What a matching event binds, and how specific the pattern is that it matched. -/
structure Match where
  /-- The captured parameters, by variable. -/
  bindings : Params
  /-- The number of parameters that the pattern fixes. -/
  specificity : Nat

namespace Pattern

/-- The number of parameters that a pattern fixes. -/
def specificity (p : Pattern) : Nat := p.params.size

/-- The variables that a pattern reads, in the order of the parameters. -/
def variableNames (p : Pattern) : List String := p.params.values.filterMap Constraint.reads?

/-- The text of a pattern. -/
def display (p : Pattern) : String :=
  let parts := p.params.entries.map fun (k, c) => k ++ "=" ++ c.display
  p.event ++ "(" ++ ", ".intercalate parts ++ ")"

/-- Reads a pattern. -/
def ofJson? (j : Json) : Option Pattern := do
  let fs ← Json.record? .json ["event", "params", "capture", "exclusive"] j
  let event ← fs.required? "event" Json.asString?
  let params ← fs.optional? "params"
    (Json.asTable? fun j => some (Constraint.ofValue (Value.ofJson j))) Table.empty
  let capture ← fs.optional? "capture" (Json.asTable? Json.asString?) Table.empty
  let isExclusive ← fs.optional? "exclusive" Json.asBool? false
  return { event, params, capture, isExclusive }

/-- The members of the document of a pattern, given the documents of numbers; what has its default
is left out. -/
def toMembers (number : Float → Json) (p : Pattern) : List (Option (String × Json)) :=
  [Json.present "event" (.string p.event),
    Json.omitIf p.params.isEmpty "params"
      (Params.toJsonWith number (p.params.map fun _ c => c.toValue)),
    Json.omitIf p.capture.isEmpty "capture" (.object (p.capture.map fun _ v => .string v).entries),
    Json.omitIf (!p.isExclusive) "exclusive" (.bool true)]

/-- The document of a pattern, given those of numbers. -/
def toJsonWith (number : Float → Json) (p : Pattern) : Json := Json.members (p.toMembers number)

/-- The document of a pattern. -/
def toJson (p : Pattern) : Json := p.toJsonWith Value.numberToJson

/-- Whether the parameters of an event are as expected. They are tested in the order of their
names, and a variable without a value is an error as soon as its turn comes. -/
def admits (p : Pattern) (e : Event) (scope : Scope) :
    List (String × Constraint) → Except FlowError Bool
  | [] => .ok true
  | (k, c) :: rest =>
    let expected : Except FlowError Value :=
      match c with
      | .literal v => .ok v
      | .var name =>
        match scope name with
        | some v => .ok v
        | none => .error (.unboundInPattern p.display name)
    match expected with
    | .error err => .error err
    | .ok v => if (e.parameter? k).any (· == v) then p.admits e scope rest else .ok false

/-- The captured parameters of an event; one that the event lacks is captured as null. -/
def captured (p : Pattern) (e : Event) : Params :=
  Table.ofList (p.capture.entries.map fun (k, v) => (v, (e.parameter? k).getD .null))

/-- Tests an event. A variable without a value is an error only if the event has the right name. -/
def match? (p : Pattern) (e : Event) (scope : Scope) : Except FlowError (Option Match) :=
  if p.event != e.name then .ok none
  else do
    let admitted ← p.admits e scope p.params.entries
    return if admitted then some ⟨p.captured e, p.specificity⟩ else none

end Pattern

/-- Whether a binding would give a parameter of a flow a second value. -/
def conflict? (locals : Params) (isParameter : String → Bool) (binding : String × Value) :
    Option FlowError :=
  if isParameter binding.1 then
    match locals.get? binding.1 with
    | some existing =>
      if !existing.isNull && existing != binding.2 then
        some (.bindingConflict binding.1 existing binding.2)
      else none
    | none => none
  else none

/-- Parameters of a flow keep their first value that is not null: a binding of another value is
an error, the first one in the order of names. -/
def checkBindings (locals bindings : Params) (isParameter : String → Bool) :
    Except FlowError Unit :=
  match bindings.entries.findSome? (conflict? locals isParameter) with
  | some e => .error e
  | none => .ok ()

end Dialogue
