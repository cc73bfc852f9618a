/-!
# Regular expressions

The syntax trees of regular expressions, without what only a search for the first occurrence would
need: whether a repetition prefers more or fewer turns.

## Main definitions

* `CharSet` — a set of characters as ranges of code points
* `Look` — a condition on a place between two characters
* `Regex` — a regular expression
* `Regex.height` — how deep it nests
-/

namespace Dialogue

/-- A set of characters, as closed ranges of code points. -/
abbrev CharSet := List (Nat × Nat)

namespace CharSet

/-- The largest code point. -/
def top : Nat := 0x10FFFF

/-- Whether a character is in a set. -/
def contains (s : CharSet) (c : Char) : Bool :=
  s.any fun (first, last) => first ≤ c.toNat && c.toNat ≤ last

/-- Puts a range in front of ranges in increasing order, joining it with the first one if they
touch. -/
def prepend (r : Nat × Nat) : CharSet → CharSet
  | [] => [r]
  | s :: rest =>
    if s.1 ≤ r.2 + 1 then (min r.1 s.1, max r.2 s.2) :: rest else r :: s :: rest

/-- Joins the ranges that touch in a list in increasing order. -/
def joinTouching (s : CharSet) : CharSet :=
  (s.foldl (fun done r =>
    match done with
    | [] => [r]
    | d :: rest => if r.1 ≤ d.2 + 1 then (d.1, max d.2 r.2) :: rest else r :: d :: rest) []).reverse

/-- The same set as disjoint ranges in increasing order that do not touch. -/
def canonical (s : CharSet) : CharSet :=
  joinTouching (s.mergeSort fun a b => a.1 < b.1 || (a.1 == b.1 && a.2 ≤ b.2))

/-- The gaps between ranges in increasing order, from a code point on. -/
def gaps : Nat → CharSet → CharSet
  | low, [] => if low ≤ top then [(low, top)] else []
  | low, (first, last) :: rest =>
    if low < first then (low, first - 1) :: gaps (last + 1) rest else gaps (last + 1) rest

/-- The characters that are not in a set. -/
def complement (s : CharSet) : CharSet := gaps 0 s.canonical

/-- A range of ASCII letters in the other case. A range that holds small letters is folded by
those, any other by the capital letters in it. -/
def foldRange? (r : Nat × Nat) : Option (Nat × Nat) :=
  if max r.1 0x61 ≤ min r.2 0x7A then some (max r.1 0x61 - 32, min r.2 0x7A - 32)
  else if max r.1 0x41 ≤ min r.2 0x5A then some (max r.1 0x41 + 32, min r.2 0x5A + 32)
  else none

/-- A set together with its ASCII letters in the other case. -/
def foldCase (s : CharSet) : CharSet := (s.canonical ++ s.canonical.filterMap foldRange?).canonical

/-- The ASCII digits. -/
def digit : CharSet := [(0x30, 0x39)]

/-- The ASCII blanks. -/
def space : CharSet := [(0x09, 0x0D), (0x20, 0x20)]

/-- The ASCII letters, digits and the underscore. -/
def word : CharSet := [(0x30, 0x39), (0x41, 0x5A), (0x5F, 0x5F), (0x61, 0x7A)]

end CharSet

/-- A condition on a place between two characters. -/
inductive Look where
  /-- Nothing stands before. -/
  | start
  /-- Nothing stands after. -/
  | stop
  /-- A line begins here; `true` if carriage returns end lines too. -/
  | lineStart (carriageReturns : Bool)
  /-- A line ends here; `true` if carriage returns end lines too. -/
  | lineEnd (carriageReturns : Bool)
  /-- A word begins or ends here. -/
  | boundary
  /-- No word begins or ends here. -/
  | noBoundary
  /-- A word begins here. -/
  | wordStart
  /-- A word ends here. -/
  | wordEnd
  /-- No word character stands before. -/
  | wordStartHalf
  /-- No word character stands after. -/
  | wordEndHalf
  deriving DecidableEq

/-- A regular expression. -/
inductive Regex where
  | empty
  | char (c : Char)
  | oneOf (s : CharSet)
  | look (l : Look)
  /-- Between `least` and `most` turns; without `most`, any number of turns from `least` on. -/
  | repeated (r : Regex) (least : Nat) (most : Option Nat)
  /-- A group, numbered from one in the order of the opening parentheses. -/
  | group (number : Nat) (name : Option String) (r : Regex)
  | concat (rs : List Regex)
  | alternation (rs : List Regex)
  deriving Inhabited

namespace Regex

/-- A concatenation, of which one part alone is just that part. -/
def concatOf : List Regex → Regex
  | [] => empty
  | [r] => r
  | rs => concat rs

/-- An alternation, of which one branch alone is just that branch. -/
def alternationOf : List Regex → Regex
  | [r] => r
  | rs => alternation rs

/-- A repetition, of which no turn at all leaves nothing and just one turn leaves what is
repeated. -/
def repeatedOf (r : Regex) (least : Nat) (most : Option Nat) : Regex :=
  if most == some 0 then empty
  else if least == 1 && most == some 1 then r
  else repeated r least most

mutual

/-- The number of nodes above the deepest node. -/
def height : Regex → Nat
  | repeated r _ _ => height r + 1
  | group _ _ r => height r + 1
  | concat rs => heights rs
  | alternation rs => heights rs
  | _ => 0

/-- One more than the largest height in a list, zero for the empty list. -/
def heights : List Regex → Nat
  | [] => 0
  | r :: rs => max (height r + 1) (heights rs)

end

end Regex

end Dialogue
