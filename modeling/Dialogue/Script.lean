import Dialogue.Duration
import Dialogue.Event
import Dialogue.Json.Reader
import Dialogue.Library.Error
import Dialogue.Text.Blank
import Dialogue.Text.Lines
import Dialogue.Text.Piece

/-!
# Scripts

A script is the user's side of a conversation, a line for each step. A plain line is said; a
document with a field `wait` lets as many seconds pass; any other document is an event. Blank lines
and lines that begin with a hash mark do not count.

## Main definitions

* `ScriptStep`, `ScriptStep.ofLine`
* `Script.parse`
-/

namespace Dialogue

/-- A step of a script. -/
inductive ScriptStep where
  /-- The user says something. -/
  | say (text : String)
  /-- Time passes. -/
  | wait (d : Duration)
  /-- An event happens. -/
  | raise (e : Event)

/-- What is wrong with a line of a script. -/
inductive ScriptError where
  /-- The wait is negative or longer than any timeout. -/
  | invalidWait (seconds : Float)
  /-- The line is neither a wait nor an event. -/
  | unexpected (line : String)

namespace ScriptError

/-- The wording of a mistake in a line. -/
def message : ScriptError → String
  | invalidWait seconds => "invalid wait: " ++ Decimal.Layout.plain.float seconds
  | unexpected line => "expected \x7b\"wait\": secs\x7d or an event object: " ++ line

end ScriptError

namespace ScriptStep

/-- The seconds of a wait. -/
def waitSeconds? (j : Json) : Option Float := do
  let fs ← Json.record? .json ["wait"] j
  fs.required? "wait" Json.asFloat?

/-- Reads a step that is written as a document. -/
def ofJson (line : String) (j : Json) : Except ScriptError ScriptStep :=
  match waitSeconds? j with
  | some seconds =>
    if maxTimeout < seconds then .error (.invalidWait seconds)
    else
      match Duration.ofSeconds? seconds with
      | some d => .ok (.wait d)
      | none => .error (.invalidWait seconds)
  | none =>
    match Event.ofJson? j with
    | some e => .ok (.raise e)
    | none => .error (.unexpected line)

/-- Reads a line, which may hold nothing. -/
def ofLine (line : String) : Except ScriptError (Option ScriptStep) :=
  let line := Text.trim line
  if line.isEmpty || Text.startsWith line "#" then .ok none
  else if !Text.startsWith line "\x7b" then .ok (some (.say line))
  else
    match Json.read? line with
    | some j => (ofJson line j).map some
    | none => .error (.unexpected line)

end ScriptStep

namespace Script

/-- Reads lines from a number on; the first mistake counts. -/
def parseLines : Nat → List String → Except (Nat × ScriptError) (List ScriptStep)
  | _, [] => .ok []
  | number, line :: rest =>
    match ScriptStep.ofLine line with
    | .error e => .error (number, e)
    | .ok step => (parseLines (number + 1) rest).map (step.toList ++ ·)

/-- Reads a script, or gives the number of the first line that is wrong, and what is wrong with
it. -/
def parse (content : String) : Except (Nat × ScriptError) (List ScriptStep) :=
  parseLines 1 (Text.lines content)

/-- The wording of a mistake in a script. -/
def errorText (e : Nat × ScriptError) : String := s!"line {e.1}: {e.2.message}"

end Script

end Dialogue
