import Dialogue.Json.Reader
import Dialogue.Statement.Document
import Dialogue.Text.Path
import Dialogue.Toml
import Dialogue.Vocabulary

/-!
# Flow files

A flow file declares events and defines flows. Files whose extension is `json` hold documents, all
others hold TOML.

## Main definitions

* `FlowFile`, `FlowFile.ofJson?`, `FlowFile.parse`
* `SourceFile` — a file and what was found in it
-/

namespace Dialogue

/-- The contents of a flow file. -/
structure FlowFile where
  /-- The declared events. -/
  events : List EventDeclaration
  /-- The flows. -/
  flows : List FlowDefinition

/-- A file and its text, or the reason why it could not be read. -/
structure SourceFile where
  /-- Where the file is. -/
  path : String
  /-- What is in it. -/
  content : Except String String

namespace FlowFile

/-- The fields of a flow file, in order, with what is needed of each. -/
def fields : List (String × Json.Interest) :=
  [("events", .each EventDeclaration.wanted), ("flows", .each FlowDefinition.wanted)]

/-- Reads the contents of a flow file off its document. -/
def ofJson? (f : Format) (j : Json) : Option FlowFile := do
  let fs ← Json.record? f (fields.map Prod.fst) j
  let events ← fs.optional? "events" (Json.asList? (EventDeclaration.ofJson? f)) []
  let flows ← fs.optional? "flows" (Json.asList? (FlowDefinition.ofJson? f)) []
  return { events, flows }

/-- The format that a path asks for. -/
def format (path : String) : Format :=
  if Text.extension? path = some "json" then .json else .toml

/-- The document that a text holds, as far as a flow file needs it. -/
def document? (content : String) : Format → Option Json
  | .json => Json.readParts? (.fields fields) content
  | .toml => Toml.read? content

/-- Reads a text in the format that the path asks for. -/
def parse (path content : String) : Except DefinitionError FlowFile :=
  match (document? content (format path)).bind (ofJson? (format path)) with
  | some file => .ok file
  | none => .error (.parse path "not a flow file")

/-- Reads a file. -/
def read (f : SourceFile) : Except DefinitionError FlowFile :=
  match f.content with
  | .ok content => parse f.path content
  | .error reason => .error (.read f.path reason)

end FlowFile

end Dialogue
