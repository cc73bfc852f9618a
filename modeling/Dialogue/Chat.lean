import Dialogue.Command.Report
import Dialogue.Host

/-!
# Chats

A chat is a conversation with one session, line by line. What the session says without being asked
is shown before the next line is dealt with, and after it.

## Main definitions

* `Chat`, `Chat.begin`
* `Chat.hear` — what comes of a line
* `Chat.converse` — a whole conversation
-/

namespace Dialogue

/-- A conversation with one session. -/
structure Chat where
  /-- The host that the session lives on. -/
  host : Host

/-- Whether a chat goes on. -/
inductive ChatState where
  /-- Another line may follow. -/
  | listening (c : Chat)
  /-- The user has left. -/
  | left (c : Chat)
  /-- The session had to be discarded. -/
  | discarded
  /-- The session could not take in a line. -/
  | failed (e : CommandError)

namespace Chat

/-- Lines that leave a chat. -/
def isFarewell (line : String) : Bool := line == "/quit" || line == "/exit"

/-- The lines of turns up to the first fatal one, and whether there is one. -/
def shown : List Turn → List String × Bool
  | [] => ([], false)
  | t :: rest =>
    if t.isFatal then (t.lines, true)
    else
      let (lines, isFatal) := shown rest
      (t.lines ++ lines, isFatal)

/-- Lets time pass, and shows what the session says. -/
def catchUp (c : Chat) (now : Instant) : List String × ChatState :=
  let (turns, host) := (c.host.runUntil (c.host.now.max now)).takeTurns 0
  let (lines, isFatal) := shown turns
  (lines, if isFatal then .discarded else .listening ⟨host⟩)

/-- Opens a chat, and shows what the session says at first. -/
def begin (host : Host) (mainFlows : List String) : List String × ChatState :=
  match host.create mainFlows ∅ with
  | .error e => ([], .failed (.session e))
  | .ok (turn, host) =>
    if turn.isFatal then (turn.lines, .failed (.text "Session failed during activation"))
    else
      let (lines, state) := catchUp ⟨host⟩ host.now
      (turn.lines ++ lines, state)

/-- Takes in a line that is neither blank nor a farewell. -/
def say (c : Chat) (line : String) : List String × ChatState :=
  match c.host.submit 0 (Event.userSaid line) with
  | .error e => ([], .failed (.session e))
  | .ok (turn, host) =>
    if turn.isFatal then (turn.lines, .discarded)
    else
      let (lines, state) := catchUp ⟨host⟩ host.now
      (turn.lines ++ lines, state)

/-- What comes of a line that is there at an instant. -/
def hear (c : Chat) (now : Instant) (line : String) : List String × ChatState :=
  match c.catchUp now with
  | (lines, .listening c) =>
    let line := Text.trim line
    if line.isEmpty then (lines, .listening c)
    else if isFarewell line then (lines, .left c)
    else
      let (more, state) := c.say line
      (lines ++ more, state)
  | other => other

/-- The last line of a chat that the user has left. -/
def farewell : String := "Goodbye!"

/-- A conversation in which no time passes: what is shown, and why it failed, if it did. -/
def converse : List String × ChatState → List String → List String × Option CommandError
  | (lines, .failed e), _ => (lines, some e)
  | (lines, .discarded), _ => (lines, none)
  | (lines, .left _), _ => (lines ++ [farewell], none)
  | (lines, .listening _), [] => (lines ++ [farewell], none)
  | (lines, .listening c), line :: rest =>
    let (more, state) := c.hear c.host.now line
    converse (lines ++ more, state) rest

end Chat

end Dialogue
