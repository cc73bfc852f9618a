import Dialogue.Regex.Syntax

/-!
# Searching for a regular expression

A search runs on sets of places in the text. From the places where an expression may begin it
computes all the places where it may have ended; the expression occurs in the text if that set is
not empty when it may begin anywhere. A set of places is a natural number, whose bit `i` stands for
the place before the `i`-th character.

## Main definitions

* `Regex.Places` — sets of places
* `Regex.advance` — where an expression may have ended
* `Regex.occursIn` — whether an expression occurs in a text
-/

namespace Dialogue.Regex

/-- A set of places in a text, bit `i` standing for the place before the `i`-th character. -/
abbrev Places := Nat

/-- The places before the characters that pass a test, counted from a place on. -/
def placesFrom (p : Char → Bool) (start : Nat) (cs : List Char) : Places :=
  (cs.foldl
    (fun (acc : Places × Nat) c => (if p c then acc.1 ||| (1 <<< acc.2) else acc.1, acc.2 + 1))
    (0, start)).1

/-- The places before the characters that pass a test. -/
def placesBefore (p : Char → Bool) (cs : List Char) : Places := placesFrom p 0 cs

/-- Whether a character belongs to words. -/
def isWordChar (c : Char) : Bool := CharSet.word.contains c

/-- Whether a condition holds between two characters, of which either may be missing. -/
def Look.holds (l : Look) (before after : Option Char) : Bool :=
  let wordBefore := before.any isWordChar
  let wordAfter := after.any isWordChar
  match l with
  | .start => before.isNone
  | .stop => after.isNone
  | .lineStart false => before.all (· == '\n')
  | .lineStart true =>
    before.all fun c => c == '\n' || (c == '\r' && after != some '\n')
  | .lineEnd false => after.all (· == '\n')
  | .lineEnd true =>
    after.all fun c => c == '\r' || (c == '\n' && before != some '\r')
  | .boundary => wordBefore != wordAfter
  | .noBoundary => wordBefore == wordAfter
  | .wordStart => !wordBefore && wordAfter
  | .wordEnd => wordBefore && !wordAfter
  | .wordStartHalf => !wordBefore
  | .wordEndHalf => !wordAfter

/-- The places where a condition holds, from a place on, given the character before it. -/
def placesOfLook (l : Look) : Option Char → Nat → List Char → Places
  | before, i, [] => if Look.holds l before none then 1 <<< i else 0
  | before, i, c :: cs =>
    (if Look.holds l before (some c) then 1 <<< i else 0) ||| placesOfLook l (some c) (i + 1) cs

/-- The places that a step reaches in at most so many turns, none included. It stops as soon as a
turn reaches nothing new. -/
def closure (step : Places → Places) : Nat → Places → Places
  | 0, s => s
  | n + 1, s =>
    let s' := s ||| step s
    if s' = s then s else closure step n s'

mutual

/-- The places where an expression may have ended that began at one of the given places. -/
def advance (cs : List Char) : Regex → Places → Places
  | empty, s => s
  | char c, s => (s &&& placesBefore (· == c) cs) <<< 1
  | oneOf t, s => (s &&& placesBefore t.contains cs) <<< 1
  | look l, s => s &&& placesOfLook l none 0 cs
  | repeated r least most, s =>
    let s := Nat.repeat (fun s => advance cs r s) least s
    match most with
    | some most => closure (fun s => advance cs r s) (most - least) s
    -- A place that is reached at all is reached in no more turns than there are places.
    | none => closure (fun s => advance cs r s) (cs.length + 1) s
  | group _ _ r, s => advance cs r s
  | concat rs, s => advanceAll cs rs s
  | alternation rs, s => advanceAny cs rs s

/-- The places where a list of expressions may have ended, one after the other. -/
def advanceAll (cs : List Char) : List Regex → Places → Places
  | [], s => s
  | r :: rs, s => advanceAll cs rs (advance cs r s)

/-- The places where any one of a list of expressions may have ended. -/
def advanceAny (cs : List Char) : List Regex → Places → Places
  | [], _ => 0
  | r :: rs, s => advance cs r s ||| advanceAny cs rs s

end

/-- Whether an expression occurs anywhere in a text. -/
def occursIn (r : Regex) (text : String) : Bool :=
  let cs := text.toList
  -- An occurrence may begin at any place, the end of the text included.
  advance cs r ((1 <<< (cs.length + 1)) - 1) != 0

end Dialogue.Regex
