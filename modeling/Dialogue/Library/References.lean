import Dialogue.Statement
import Dialogue.Vocabulary

/-!
# References between flows

A flow may only expect and send declared events, start and await flows that exist, pass arguments
that these flows take, and assign to proper variables. Definitions are gone through in the order in
which they are written, and the first mistake counts.

## Main definitions

* `Signatures`, `Signatures.ofDefinitions` — the flows there are, and their parameters
* `Checker.checkBody` — the references in a body
-/

namespace Dialogue

/-- The parameters of every flow there is. -/
abbrev Signatures := Table String (List String)

namespace Signatures

/-- The first item of a list that stands in it more than once already at its place. -/
def firstRepeated? : List String → List String → Option String
  | _, [] => none
  | seen, p :: rest => if seen.contains p then some p else firstRepeated? (p :: seen) rest

/-- Adds a flow. It has to have a name of its own, and its parameters have to differ. -/
def declare (s : Signatures) (d : FlowDefinition) : Except DefinitionError Signatures :=
  if Text.isBlankText d.name then .error .emptyName
  else if s.contains d.name then .error (.duplicateFlow d.name)
  else
    match firstRepeated? [] d.parameters with
    | some p => .error (.duplicateParameter d.name p)
    | none => .ok (s.insert d.name d.parameters)

/-- The flows of a list of definitions. -/
def ofDefinitions (ds : List FlowDefinition) : Except DefinitionError Signatures :=
  ds.foldlM declare Table.empty

end Signatures

/-- What the references of one flow may refer to. -/
structure Checker where
  /-- The declared events. -/
  vocabulary : Vocabulary
  /-- The flows there are. -/
  signatures : Signatures
  /-- The name of the flow whose references are checked. -/
  flow : String

namespace Checker

/-- Checks the name of an event. -/
def checkEvent (c : Checker) (event : String) : Except DefinitionError Unit :=
  if c.vocabulary.contains event then .ok () else .error (.unknownEvent c.flow event)

/-- Checks the name of a flow, then the names of the arguments that it is given. -/
def checkTarget (c : Checker) (target : String) (args : Table String Expr) :
    Except DefinitionError Unit :=
  match c.signatures.get? target with
  | none => .error (.unknownFlow c.flow target)
  | some parameters =>
    match args.keys.find? fun arg => !parameters.contains arg with
    | some arg => .error (.unknownParameter c.flow target arg)
    | none => .ok ()

mutual

/-- Checks the references of a statement. -/
def checkStatement (c : Checker) : Statement → Except DefinitionError Unit
  | .expect pattern => c.checkEvent pattern.event
  | .send event _ => c.checkEvent event
  | .start target args _ => c.checkTarget target args
  | .await target args onFailure => do
    c.checkTarget target args
    checkHandler c onFailure
  | .sequence body => checkBody c body
  | .alternative branches => checkBranches c branches
  | .loop body => checkBody c body
  | .waitAny branches _ onTimeout => do
    checkBranches c branches
    checkBody c onTimeout
  | .branch _ thenBody elseBody => do
    checkBody c thenBody
    checkBody c elseBody
  | .assign var _ _ =>
    if isIdentifier var then .ok () else .error (.invalid c.flow (.invalidVariable var))
  | .execute _ _ _ onFailure => checkHandler c onFailure
  | .abort _ => .ok ()

/-- Checks the references of a body. -/
def checkBody (c : Checker) : List Statement → Except DefinitionError Unit
  | [] => .ok ()
  | s :: rest => do
    checkStatement c s
    checkBody c rest

/-- Checks the references of the branches of a choice. -/
def checkBranches (c : Checker) : List (List Statement) → Except DefinitionError Unit
  | [] => .ok ()
  | b :: rest => do
    checkBody c b
    checkBranches c rest

/-- Checks the references of a handler, if there is one. -/
def checkHandler (c : Checker) : Option (List Statement) → Except DefinitionError Unit
  | none => .ok ()
  | some body => checkBody c body

end

end Checker

end Dialogue
