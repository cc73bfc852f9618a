import Dialogue.Regex.Syntax

/-!
# The size of a searching machine

A search can be run by a machine of states that are linked by jumps. Its size is a measure of how
much an expression asks for, and it is what bounds the expressions that are accepted: every turn of
a counted repetition has states of its own, so few characters can ask for a large machine.

A state takes 32 bytes. A set of characters takes 8 more for each of its ranges, a fork 4 more for
each state it leads to. The groups are listed in a table, at 16 bytes a row up to the last group;
the whole expression is group zero. The name of a group takes its own bytes and 4 more.

## Main definitions

* `Regex.isNullable` — whether an expression can be found in the empty text
* `Regex.states` — the size of the states of an expression
* `Regex.groups` — the groups in an expression
* `Regex.machineSize` — the size of the whole machine
-/

namespace Dialogue.Regex

mutual

/-- Whether an expression can be found in the empty text, conditions on the place left aside. -/
def isNullable : Regex → Bool
  | empty | look _ => true
  | char _ | oneOf _ => false
  | repeated r least _ => least == 0 || isNullable r
  | group _ _ r => isNullable r
  | concat rs => areNullable rs
  | alternation rs => isAnyNullable rs

/-- Whether every expression of a list can be found in the empty text. -/
def areNullable : List Regex → Bool
  | [] => true
  | r :: rs => isNullable r && areNullable rs

/-- Whether some expression of a list can be found in the empty text. -/
def isAnyNullable : List Regex → Bool
  | [] => false
  | r :: rs => isNullable r || isAnyNullable rs

end

/-- The bytes of a state. -/
def stateSize : Nat := 32

/-- The bytes of a state that leads to so many others. -/
def forkSize (branches : Nat) : Nat := stateSize + 4 * branches

/-- The bytes of the states for so many turns of an expression, of which the states of one turn are
given; no turn at all is one state that leads on. -/
def turnsSize (turn : Nat) (n : Nat) : Nat := max stateSize (n * turn)

/-- The bytes of the states of a repetition, given those of one turn. A loop forks after each turn.
One that may be left at once and whose turns may be empty forks before the first turn too, so that
an empty turn leads out of it. Turns that may be left out are forked around one by one. -/
def loopSize (turn : Nat) ( nullable : Bool) (least : Nat) : Option Nat → Nat
  | none =>
    if least == 0 then
      if nullable then turn + 2 * forkSize 2 + stateSize else turn + forkSize 2
    else least * turn + forkSize 2
  | some most =>
    if least == 0 && most == 1 then turn + forkSize 2 + stateSize
    else if least == most then turnsSize turn least
    else turnsSize turn least + stateSize + (most - least) * (turn + forkSize 2)

mutual

/-- The bytes of the states of an expression. -/
def states : Regex → Nat
  | empty | char _ | look _ => stateSize
  | oneOf s => stateSize + 8 * s.length
  | repeated r least most => loopSize (states r) (isNullable r) least most
  | group _ _ r => states r + 2 * stateSize
  | concat rs => statesOfAll rs
  | alternation rs => statesOfAll rs + forkSize rs.length + stateSize

/-- The bytes of the states of a list of expressions. -/
def statesOfAll : List Regex → Nat
  | [] => 0
  | r :: rs => states r + statesOfAll rs

end

mutual

/-- The groups in an expression with their numbers and names. -/
def groups : Regex → List (Nat × Option String)
  | empty | char _ | oneOf _ | look _ => []
  | repeated r _ _ => groups r
  | group number name r => (number, name) :: groups r
  | concat rs => groupsOfAll rs
  | alternation rs => groupsOfAll rs

/-- The groups in a list of expressions. -/
def groupsOfAll : List Regex → List (Nat × Option String)
  | [] => []
  | r :: rs => groups r ++ groupsOfAll rs

end

/-- The bytes of the table of groups up to the last one, and of their names. -/
def groupTableSize (gs : List (Nat × Option String)) : Nat :=
  gs.foldl
    (fun size g =>
      match g.2 with
      | some name => size + name.utf8ByteSize + 4
      | none => size)
    (16 * (gs.foldl (fun last g => max last g.1) 0 + 1))

/-- The bytes of a machine that searches for an expression: the states of the expression, two
around it, one in which it has been found, and the table of groups. -/
def machineSize (r : Regex) : Nat := states r + 3 * stateSize + groupTableSize (groups r)

end Dialogue.Regex
