import Dialogue.Json.Interest
import Dialogue.Statement

/-!
# Statements in files

A statement is written as a record with its kind in the field `type`. Reading one runs over the
document from the leaves up: every part of it is read in all the ways in which the part around it
may want to use it, as a statement, as a body and as a list of branches.

## Main definitions

* `Statement.toJson`, `FlowDefinition.toJson` — the documents; what has its default is left out
* `Statement.toJsonWith`, `FlowDefinition.toJsonWith` — the same, given the documents of numbers
* `Statement.ofJson?`, `FlowDefinition.ofJson?` — reading them
-/

namespace Dialogue

namespace Statement

/-! ## Writing -/

/-- The document of named expressions. -/
def argumentsToJson (number : Float → Json) (args : Table String Expr) : Json :=
  (Expr.argumentsToParams args).toJsonWith number

mutual

/-- The members of the document of a statement, its kind aside, given the documents of numbers. -/
def toMembers (number : Float → Json) : Statement → List (Option (String × Json))
  | expect pattern => pattern.toMembers number
  | send event params =>
    [Json.present "event" (.string event),
      Json.omitIf params.isEmpty "params" (argumentsToJson number params)]
  | start flow args isDetached =>
    [Json.present "flow" (.string flow),
      Json.omitIf args.isEmpty "args" (argumentsToJson number args),
      Json.omitIf (!isDetached) "detached" (.bool true)]
  | await flow args onFailure =>
    [Json.present "flow" (.string flow),
      Json.omitIf args.isEmpty "args" (argumentsToJson number args),
      handlerMember? number onFailure]
  | sequence body => [Json.present "body" (.array (bodyToJson number body))]
  | alternative branches => [Json.present "branches" (.array (branchesToJson number branches))]
  | loop body => [Json.present "body" (.array (bodyToJson number body))]
  | waitAny branches timeout onTimeout =>
    [Json.present "branches" (.array (branchesToJson number branches)),
      timeout.map fun x => ("timeout", number x),
      Json.omitIf onTimeout.isEmpty "on_timeout" (.array (bodyToJson number onTimeout))]
  | branch condition thenBody elseBody =>
    [Json.present "condition" (.string condition.source),
      Json.present "then" (.array (bodyToJson number thenBody)),
      Json.omitIf elseBody.isEmpty "else" (.array (bodyToJson number elseBody))]
  | assign var value isGlobal =>
    [Json.present "var" (.string var), Json.present "value" (value.toValue.toJsonWith number),
      Json.omitIf (!isGlobal) "global" (.bool true)]
  | execute action params result onFailure =>
    [Json.present "action" (.string action),
      Json.omitIf params.isEmpty "params" (argumentsToJson number params),
      result.map fun var => ("result", .string var), handlerMember? number onFailure]
  | abort reason => [Json.present "reason" (.string reason)]

/-- The documents of the statements of a body. -/
def bodyToJson (number : Float → Json) : List Statement → List Json
  | [] => []
  | s :: rest =>
    Json.members (Json.present "type" (.string s.kind) :: toMembers number s) ::
      bodyToJson number rest

/-- The documents of the branches of a choice. -/
def branchesToJson (number : Float → Json) : List (List Statement) → List Json
  | [] => []
  | b :: rest => .array (bodyToJson number b) :: branchesToJson number rest

/-- The member for a handler, if there is one; an empty handler is written too. -/
def handlerMember? (number : Float → Json) : Option (List Statement) → Option (String × Json)
  | none => none
  | some body => Json.present "on_failure" (.array (bodyToJson number body))

end

/-- The document of a statement, given those of numbers. -/
def toJsonWith (number : Float → Json) (s : Statement) : Json :=
  Json.members (Json.present "type" (.string s.kind) :: s.toMembers number)

/-- The document of a statement. -/
def toJson (s : Statement) : Json := s.toJsonWith Value.numberToJson

/-! ## Reading -/

/-- A part of a document, read in all the ways in which the part around it may want to use it. -/
structure Reading where
  /-- The part itself. -/
  json : Json
  /-- The part as a statement. -/
  statement : Option Statement
  /-- The part as a body. -/
  body : Option (List Statement)
  /-- The part as the branches of a choice. -/
  branches : Option (List (List Statement))

/-- The fields of a statement, each with its readings. -/
abbrev Readings := List (String × Reading)

namespace Readings

/-- The fields as documents. -/
def fields (rs : Readings) : Json.Fields := rs.map fun (k, r) => (k, r.json)

/-- A body that has to be there. -/
def body? (rs : Readings) (name : String) : Option (List Statement) :=
  (List.lookup name rs).bind Reading.body

/-- A body that is empty when it is left out. -/
def optionalBody? (rs : Readings) (name : String) : Option (List Statement) :=
  match List.lookup name rs with
  | none => some []
  | some r => r.body

/-- A handler, which may be left out or null; an empty one is a handler. -/
def handler? (rs : Readings) (name : String) : Option (Option (List Statement)) :=
  match List.lookup name rs with
  | none => some none
  | some r =>
    match r.json with
    | .null => some none
    | _ => r.body.map some

/-- Branches that have to be there. -/
def branches? (rs : Readings) (name : String) : Option (List (List Statement)) :=
  (List.lookup name rs).bind Reading.branches

end Readings

/-- The kinds of statements in the order of their numbers. -/
def kinds : List String :=
  ["match", "send", "start", "await", "sequence", "alternative", "repeat", "wait_any", "if",
    "assign", "execute", "abort"]

/-- The kind that the tag of a statement inside another one stands for. In an object the tag may be
the number of the kind as well as its name. -/
def kindOfTag? (f : Format) (tag : Json) : Option String :=
  match f with
  | .json => (tag.asNat?.bind fun n => kinds[n]?) <|> tag.asString?
  | .toml => tag.asString?

/-- Whether a statement gives its kind by name, as one must that is inside no other. -/
def isNamed : Json → Bool
  | .object ms => ms.any fun m => m.1 == "type" && m.2.asString?.isSome
  | .array (tag :: _) => tag.asString?.isSome
  | _ => false

/-- The fields that a statement of each kind may have, in order. -/
def fieldNames : String → List String
  | "match" => ["event", "params", "capture", "exclusive"]
  | "send" => ["event", "params"]
  | "start" => ["flow", "args", "detached"]
  | "await" => ["flow", "args", "on_failure"]
  | "sequence" | "repeat" => ["body"]
  | "alternative" => ["branches"]
  | "wait_any" => ["branches", "timeout", "on_timeout"]
  | "if" => ["condition", "then", "else"]
  | "assign" => ["var", "value", "global"]
  | "execute" => ["action", "params", "result", "on_failure"]
  | "abort" => ["reason"]
  | _ => []

/-- Reads named expressions. -/
def arguments? (fs : Json.Fields) (name : String) : Option (Table String Expr) :=
  fs.optional? name (Json.asTable? fun j => some (Expr.ofValue (Value.ofJson j))) Table.empty

/-- Reads a statement of a given kind from its fields. -/
def ofReadings? (kind : String) (rs : Readings) : Option Statement := do
  let fs := rs.fields
  match kind with
  | "match" => return .expect (← Pattern.ofJson? (.object fs))
  | "send" =>
    return .send (← fs.required? "event" Json.asString?) (← arguments? fs "params")
  | "start" =>
    return .start (← fs.required? "flow" Json.asString?) (← arguments? fs "args")
      (← fs.optional? "detached" Json.asBool? false)
  | "await" =>
    return .await (← fs.required? "flow" Json.asString?) (← arguments? fs "args")
      (← rs.handler? "on_failure")
  | "sequence" => return .sequence (← rs.body? "body")
  | "alternative" => return .alternative (← rs.branches? "branches")
  | "repeat" => return .loop (← rs.body? "body")
  | "wait_any" =>
    return .waitAny (← rs.branches? "branches") (← fs.nullable? "timeout" Json.asFloat?)
      (← rs.optionalBody? "on_timeout")
  | "if" =>
    return .branch (← fs.required? "condition" Condition.ofJson?) (← rs.optionalBody? "then")
      (← rs.optionalBody? "else")
  | "assign" =>
    return .assign (← fs.required? "var" Json.asString?)
      (← fs.required? "value" fun j => some (Expr.ofValue (Value.ofJson j)))
      (← fs.optional? "global" Json.asBool? false)
  | "execute" =>
    return .execute (← fs.required? "action" Json.asString?) (← arguments? fs "params")
      (← fs.nullable? "result" Json.asString?) (← rs.handler? "on_failure")
  | "abort" => return .abort (← fs.optional? "reason" Json.asString? "")
  | _ => none

/-- Reads a statement from the members of an object. -/
def ofMembers? (f : Format) (ms : Readings) : Option Statement := do
  let types := ms.filter fun m => m.1 == "type"
  let [(_, r)] := types | none
  let kind ← kindOfTag? f r.json
  let known := ms.filter fun m => m.1 != "type" && (fieldNames kind).contains m.1
  if (known.map Prod.fst).Nodup then ofReadings? kind known else none

/-- Reads a statement from an array: its kind, then its fields in order. -/
def ofItems? (f : Format) (rs : List Reading) : Option Statement := do
  let r :: rest := rs | none
  let kind ← kindOfTag? f r.json
  if rest.length ≤ (fieldNames kind).length then ofReadings? kind ((fieldNames kind).zip rest)
  else none

mutual

/-- Reads a part of a document in every way. -/
def reading (f : Format) : Json → Reading
  | .object ms => ⟨.object ms, ofMembers? f (memberReadings f ms), none, none⟩
  | .array js =>
    let rs := itemReadings f js
    ⟨.array js, ofItems? f rs, rs.mapM Reading.statement, rs.mapM Reading.body⟩
  | j => ⟨j, none, none, none⟩

/-- Reads the items of an array. -/
def itemReadings (f : Format) : List Json → List Reading
  | [] => []
  | j :: js => reading f j :: itemReadings f js

/-- Reads the members of an object. -/
def memberReadings (f : Format) : List (String × Json) → Readings
  | [] => []
  | (k, j) :: ms => (k, reading f j) :: memberReadings f ms

end

/-- Reads a statement that is inside no other. -/
def ofJson? (f : Format) (j : Json) : Option Statement :=
  if isNamed j then (reading f j).statement else none

/-- Reads the body of a flow. -/
def bodyOfJson? (f : Format) (j : Json) : Option (List Statement) := Json.asList? (ofJson? f) j

end Statement

namespace FlowDefinition

/-- The members of the document of a flow, given the documents of numbers. -/
def toMembers (number : Float → Json) (d : FlowDefinition) : List (Option (String × Json)) :=
  [Json.present "name" (.string d.name),
    Json.omitIf d.parameters.isEmpty "parameters" (Json.strings d.parameters),
    Json.omitIf d.description.isEmpty "description" (.string d.description),
    Json.present "body" (.array (Statement.bodyToJson number d.body))]

/-- The document of a flow, given those of numbers. -/
def toJsonWith (number : Float → Json) (d : FlowDefinition) : Json :=
  Json.members (d.toMembers number)

/-- The document of a flow. -/
def toJson (d : FlowDefinition) : Json := d.toJsonWith Value.numberToJson

/-- The fields of a flow, in order. -/
def fieldNames : List String := ["name", "parameters", "description", "body"]

/-- The parts of a document that a flow needs; of its statements these are all parts. -/
def wanted : Json.Interest := .ofNames fieldNames

/-- Reads a flow. -/
def ofJson? (f : Format) (j : Json) : Option FlowDefinition := do
  let fs ← Json.record? f fieldNames j
  let name ← fs.required? "name" Json.asString?
  let parameters ← fs.optional? "parameters" (Json.asList? Json.asString?) []
  let description ← fs.optional? "description" Json.asString? ""
  let body ← fs.optional? "body" (Statement.bodyOfJson? f) []
  return { name, parameters, description, body }

end FlowDefinition

end Dialogue
