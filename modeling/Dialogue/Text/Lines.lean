/-!
# Lines

A line ends with a line feed, before which a carriage return may stand. The end of the text ends
the last line too, unless nothing is left for it.

## Main definitions

* `lines` — the lines of a text
* `ofLines` — the text of lines
-/

namespace Dialogue.Text

/-- The lines of a text, given the characters of its first line so far in reverse. -/
def linesAfter : List Char → List Char → List (List Char)
  | [], [] => []
  | start, [] => [start.reverse]
  | '\r' :: start, '\n' :: cs => start.reverse :: linesAfter [] cs
  | start, '\n' :: cs => start.reverse :: linesAfter [] cs
  | start, c :: cs => linesAfter (c :: start) cs

/-- The lines of a text, without their ends. -/
def lines (s : String) : List String := (linesAfter [] s.toList).map String.ofList

/-- The text of lines, each of which a line feed ends. -/
def ofLines (l : List String) : String := String.join (l.map (· ++ "\n"))

end Dialogue.Text
