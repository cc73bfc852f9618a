import Dialogue.Command.System
import Dialogue.Config
import Dialogue.Replay
import Dialogue.Text.Quoted

/-!
# Reports

When a command fails, the last thing it shows is a report: the cause of the failure by its name,
with its particulars in braces or parentheses, or a text in quotes.

## Main definitions

* `CommandError`, `CommandError.report`
-/

namespace Dialogue

namespace Report

/-- A cause with named particulars, whose texts are given. -/
def named (cause : String) (fields : List (String × String)) : String :=
  cause ++ " \x7b " ++ ", ".intercalate (fields.map fun (k, v) => k ++ ": " ++ v) ++ " \x7d"

/-- A cause with one particular. -/
def single (cause text : String) : String := cause ++ "(" ++ Text.quoted text ++ ")"

/-- A cause with named particulars. -/
def quoted (cause : String) (fields : List (String × String)) : String :=
  named cause (fields.map fun (k, v) => (k, Text.quoted v))

end Report

/-- The report of a mistake in flow definitions. -/
def DefinitionError.report : DefinitionError → String
  | emptyName => "EmptyName"
  | duplicateFlow name => Report.single "DuplicateFlow" name
  | duplicateParameter flow parameter =>
    Report.quoted "DuplicateParameter" [("flow", flow), ("parameter", parameter)]
  | unknownEvent flow event => Report.quoted "UnknownEvent" [("flow", flow), ("event", event)]
  | unknownFlow flow target => Report.quoted "UnknownFlow" [("flow", flow), ("target", target)]
  | unknownParameter flow target parameter =>
    Report.quoted "UnknownParameter" [("flow", flow), ("target", target), ("parameter", parameter)]
  | unknownAction flow action => Report.quoted "UnknownAction" [("flow", flow), ("action", action)]
  | nonBlockingLead flow => Report.quoted "NonBlockingLead" [("flow", flow)]
  | nonBlockingLoop flow => Report.quoted "NonBlockingLoop" [("flow", flow)]
  | invalid flow reason => Report.quoted "Invalid" [("flow", flow), ("reason", reason.message)]
  | conflictingEventKind name existing incoming =>
    Report.named "ConflictingEventKind" [("name", Text.quoted name),
      ("existing", existing.label), ("incoming", incoming.label)]
  | condition source error =>
    Report.quoted "Predicate" [("source_text", source), ("detail", error.message)]
  | read path reason => Report.quoted "Read" [("path", path), ("reason", reason)]
  | parse path reason => Report.quoted "Parse" [("path", path), ("reason", reason)]

/-- The report of missing settings. -/
def ConfigError.report : ConfigError → String
  | read path reason => Report.quoted "ReadError" [("path", path), ("reason", reason)]
  | parse path reason => Report.quoted "ParseError" [("path", path), ("reason", reason)]
  | invalid fault => Report.single "ValidationError" fault.message

/-- The report of a refused input. -/
def SessionError.report : SessionError → String
  | unreachableState detail => Report.single "UnreachableState" detail
  | sessionNotFound session => Report.single "SessionNotFound" session
  | sessionClosed session => Report.single "SessionClosed" session
  | unknownFlow name => Report.single "UnknownFlow" name

/-- The report of a file that cannot be used. -/
def FileError.report (e : FileError) : String :=
  match e.details?, e with
  | some (text, number, kind), _ =>
    Report.named "Os" [("code", toString number), ("kind", kind), ("message", Text.quoted text)]
  | none, zeroInName =>
    Report.named "Error"
      [("kind", "InvalidInput"), ("message", Text.quoted FileError.zeroInNameText)]
  | none, other text => Text.quoted text
  | none, _ => ""

/-- Why a command failed. -/
inductive CommandError where
  | text (s : String)
  | definition (e : DefinitionError)
  | config (e : ConfigError)
  | session (e : SessionError)
  | file (e : FileError)

namespace CommandError

/-- The report of a failure. -/
def report : CommandError → String
  | text s => Text.quoted s
  | definition e => e.report
  | config e => e.report
  | session e => e.report
  | file e => e.report

/-- The failure of a command whose replay cannot go on. -/
def ofReplay : ReplayError → CommandError
  | .session e => session e
  | e => text e.message

end CommandError

end Dialogue
