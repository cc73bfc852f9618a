/-!
# Plain text

A terminal does not show every character of a text. A control character moves the cursor or rings
the bell, and a control sequence, which an escape character begins, sets a colour or a title. A text
becomes plain by leaving out whatever is not shown; of the control characters only tabulators and
ends of lines and pages stay.

## Main definitions

* `Terminal`, `Terminal.next` — what a terminal expects, and what it makes of a character
* `plain` — a text without what is not shown
-/

namespace Dialogue.Text

/-- What a terminal expects. -/
inductive Terminal where
  /-- Characters to be shown. -/
  | ground
  /-- What stands behind an escape character. -/
  | escape
  /-- The last character of a short sequence. -/
  | short
  /-- Numbers, and the letter that says what they are for. -/
  | control
  /-- A title or another setting, which a bell ends. -/
  | setting
  /-- The head of a string for a device. -/
  | head
  /-- A string that is not shown. -/
  | hidden
  deriving DecidableEq, Repr

namespace Terminal

/-- Whether a character is a tabulator or the end of a line or a page. -/
def isBreak (c : Char) : Bool := c == '\t' || c == '\n' || c == '\x0c' || c == '\r'

/-- Whether a character is among the visible ones from a number on, up to the tilde. -/
def isVisibleFrom (n : Nat) (c : Char) : Bool := n ≤ c.toNat && c.toNat < 0x7F

/-- What is expected behind an escape character and one more. -/
def afterEscape (c : Char) : Terminal :=
  if c == '[' then control
  else if c == ']' then setting
  else if c == 'P' then head
  else if c == 'X' || c == '^' || c == '_' then hidden
  else if isVisibleFrom 0x30 c then ground
  else if isVisibleFrom 0x20 c then short
  else escape

/-- What is expected behind a character inside a control sequence. The string terminator may be part
of a longer character. -/
def inside (t : Terminal) (c : Char) : Terminal :=
  match t with
  | ground => ground
  | escape => afterEscape c
  | short => if isVisibleFrom 0x30 c then ground else short
  | control => if isVisibleFrom 0x40 c then ground else control
  | setting => if c == '\x07' then ground else setting
  | head => if isVisibleFrom 0x40 c then hidden else head
  | hidden => if (String.utf8EncodeChar c).contains 0x9C then ground else hidden

/-- Whether a break is carried out even where a control sequence is expected to go on. -/
def breaks : Terminal → Bool
  | ground | escape | short | control => true
  | setting | head | hidden => false

/-- What is expected behind a character, and whether the character is shown. -/
def next (t : Terminal) (c : Char) : Terminal × Bool :=
  if c == '\x1b' then (escape, false)
  else if c == '\x18' || c == '\x1a' then (ground, false)
  else if t.breaks && isBreak c then (ground, true)
  else (t.inside c, t == ground && 0x20 ≤ c.toNat && c != '\x7f')

end Terminal

/-- The characters that are shown, given what is expected at first. -/
def plainList : Terminal → List Char → List Char
  | _, [] => []
  | t, c :: cs =>
    let (t, isShown) := t.next c
    if isShown then c :: plainList t cs else plainList t cs

/-- A text without what is not shown. -/
def plain (s : String) : String := String.ofList (plainList .ground s.toList)

end Dialogue.Text
