import Dialogue.Library.File
import Dialogue.Library.References
import Dialogue.Program.Compile

/-!
# Libraries

A library is a set of flows that fit together: their names differ, what they refer to exists, and
each of them has a program.

## Main definitions

* `CompiledFlow`, `FlowLibrary`
* `FlowLibrary.ofDefinitions`, `FlowLibrary.load`
* `FlowLibrary.checkActions` — whether the actions that the flows call are there
-/

namespace Dialogue

/-- A flow and its program. -/
structure CompiledFlow where
  /-- The flow as it was written. -/
  definition : FlowDefinition
  /-- Its program. -/
  program : Program

/-- Flows that fit together, and the vocabulary that they were checked against. -/
structure FlowLibrary where
  /-- The flows, by name. -/
  flows : Table String CompiledFlow
  /-- The declared events. -/
  vocabulary : Vocabulary

namespace FlowLibrary

/-- Compiles definitions one after the other. -/
def compileAll : List FlowDefinition → Except DefinitionError (List (String × CompiledFlow))
  | [] => .ok []
  | d :: rest => do
    let program ← d.compile
    let flows ← compileAll rest
    return (d.name, ⟨d, program⟩) :: flows

/-- A library of definitions. All names are checked before any reference, and all references before
any flow is compiled. -/
def ofDefinitions (vocabulary : Vocabulary) (ds : List FlowDefinition) :
    Except DefinitionError FlowLibrary := do
  let signatures ← Signatures.ofDefinitions ds
  for d in ds do
    Checker.checkBody ⟨vocabulary, signatures, d.name⟩ d.body
  let flows ← compileAll ds
  return ⟨Table.ofList flows, vocabulary⟩

/-- Reads files one after the other, adding their events and flows to what is there already. -/
def readAll (vocabulary : Vocabulary) (ds : List FlowDefinition) :
    List SourceFile → Except DefinitionError (Vocabulary × List FlowDefinition)
  | [] => .ok (vocabulary, ds)
  | f :: rest => do
    let file ← FlowFile.read f
    let vocabulary ← vocabulary.extend file.events
    readAll vocabulary (ds ++ file.flows) rest

/-- A library of several files. -/
def load (vocabulary : Vocabulary) (files : List SourceFile) :
    Except DefinitionError FlowLibrary := do
  let (vocabulary, ds) ← readAll vocabulary [] files
  ofDefinitions vocabulary ds

/-- The flow of a name. -/
def get? (l : FlowLibrary) (name : String) : Option CompiledFlow := l.flows.get? name

/-- Whether there is a flow of a name. -/
def contains (l : FlowLibrary) (name : String) : Bool := l.flows.contains name

/-- The names of the flows, in order. -/
def names (l : FlowLibrary) : List String := l.flows.keys

/-- The number of flows. -/
def size (l : FlowLibrary) : Nat := l.flows.size

/-- Different names in order. -/
def sortNames (names : List String) : List String :=
  (Table.ofList (names.map fun n => (n, ())) : Table String Unit).keys

/-- The actions that the flows call, in order. -/
def actions (l : FlowLibrary) : List String :=
  sortNames (l.flows.values.flatMap fun f => Statement.actionsIn f.definition.body)

/-- The first action that a flow calls and that is not available, in the order of their names. -/
def missingAction? (f : CompiledFlow) (available : List String) : Option String :=
  (sortNames (Statement.actionsIn f.definition.body)).find? fun a => !available.contains a

/-- Checks that every action which a flow calls is available. -/
def checkActions (l : FlowLibrary) (available : List String) : Except DefinitionError Unit :=
  l.flows.values.forM fun f =>
    match missingAction? f available with
    | some action => .error (.unknownAction f.definition.name action)
    | none => .ok ()

end FlowLibrary

end Dialogue
