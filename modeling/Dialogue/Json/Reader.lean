import Dialogue.Decimal.Scaled
import Dialogue.Json.Interest

/-!
# Reading documents

The reader follows the grammar of JSON texts. It takes what it reads off the front of a list of
characters and hands back the rest. Nesting is bounded, and the bound is what the recursion runs
on: a document inside an array or an object is read with one level less. Parts that are not needed
are passed over: their grammar is checked and nothing else.

## Main definitions

* `Json.Reader.skip` — passes over one document at the front of a text
* `Json.Reader.value` — takes one document off the front of a text
* `Json.read?`, `Json.readParts?` — the document that a whole text holds, or the needed parts of it
-/

namespace Dialogue.Json

namespace Reader

/-- The four characters that may stand between the parts of a document. -/
def isGap (c : Char) : Bool := c == ' ' || c == '\n' || c == '\t' || c == '\r'

/-- Drops the gap at the front of a text. -/
def skipGap (cs : List Char) : List Char := cs.dropWhile isGap

/-- The value of a hexadecimal digit. -/
def hexValue? (c : Char) : Option Nat :=
  if c.isDigit then some (c.toNat - '0'.toNat)
  else if 'a' ≤ c && c ≤ 'f' then some (c.toNat - 'a'.toNat + 10)
  else if 'A' ≤ c && c ≤ 'F' then some (c.toNat - 'A'.toNat + 10)
  else none

/-- The value of a run of hexadecimal digits. -/
def hexNumber? (cs : List Char) : Option Nat :=
  cs.foldl (fun n c => return 16 * (← n) + (← hexValue? c)) (some 0)

/-- The character that a backslash and one letter stand for. -/
def unescape? : Char → Option Char
  | '"' => some '"'
  | '\\' => some '\\'
  | '/' => some '/'
  | 'b' => some '\x08'
  | 'f' => some '\x0c'
  | 'n' => some '\n'
  | 'r' => some '\r'
  | 't' => some '\t'
  | _ => none

/-- Whether a code unit is the first half of a surrogate pair. -/
def isHigh (u : Nat) : Bool := 0xD800 ≤ u && u < 0xDC00

/-- Whether a code unit is the second half of a surrogate pair. -/
def isLow (u : Nat) : Bool := 0xDC00 ≤ u && u < 0xE000

/-- Takes the rest of a string and its closing quote off the front of a text. A character beyond
the basic plane may be escaped as a surrogate pair; half a pair is refused. -/
def string : List Char → Option (List Char × List Char)
  | [] => none
  | '"' :: rest => some ([], rest)
  | '\\' :: 'u' :: a :: b :: c :: d :: rest =>
    match hexNumber? [a, b, c, d] with
    | none => none
    | some u =>
      if isHigh u then
        match rest with
        | '\\' :: 'u' :: e :: f :: g :: h :: rest =>
          match hexNumber? [e, f, g, h] with
          | none => none
          | some v =>
            if isLow v then
              let c := Char.ofNat (0x10000 + (u - 0xD800) * 0x400 + (v - 0xDC00))
              (string rest).map fun (s, r) => (c :: s, r)
            else none
        | _ => none
      else if isLow u then none
      else (string rest).map fun (s, r) => (Char.ofNat u :: s, r)
  | '\\' :: c :: rest =>
    match unescape? c with
    | none => none
    | some c => (string rest).map fun (s, r) => (c :: s, r)
  | c :: rest =>
    if c.toNat < 0x20 then none else (string rest).map fun (s, r) => (c :: s, r)

/-- Passes over the rest of a string and its closing quote. The number of an escaped character has
to be written in four digits, but need not be that of a character. -/
def skipString : List Char → Option (List Char)
  | [] => none
  | '"' :: rest => some rest
  | '\\' :: 'u' :: a :: b :: c :: d :: rest =>
    if (hexNumber? [a, b, c, d]).isSome then skipString rest else none
  | '\\' :: c :: rest => if (unescape? c).isSome then skipString rest else none
  | c :: rest => if c.toNat < 0x20 then none else skipString rest

/-- Takes a number off the front of a text as a sign and a numeral. Its digits do not begin with a
needless zero, and there are digits on both sides of a point. -/
def numeral (cs : List Char) : Option ((Bool × Decimal.Numeral) × List Char) :=
  let (negative, cs) : Bool × List Char :=
    match cs with
    | '-' :: rest => (true, rest)
    | _ => (false, cs)
  let (n, rest) := Decimal.Numeral.scan cs
  let wellFormed := (n.whole == ['0'] || n.whole.head?.any (· != '0'))
    && n.fraction.all fun ds => !ds.isEmpty
  if wellFormed then some ((negative, n), rest) else none

/-- The document of a number. A whole number that fits sixty-four bits is kept as such, any other
number is a double; one that is too large for a double is refused. -/
def number (negative : Bool) (n : Decimal.Numeral) : Option Json :=
  let value := Decimal.natOfDigits n.whole
  if n.isInteger && negative && 0 < value && value ≤ UInt64.size / 2 then some (.int (-value))
  else if n.isInteger && !negative && value < UInt64.size then some (.int value)
  else (n.scaled? negative).map .float

/-- Takes a non-empty list of items, separated by commas, and the closing bracket off the front of
a text. The items are read by their positions, the first of which is given; the first number bounds
how many items there are. -/
def items {α : Type} (item : Nat → List Char → Option (α × List Char)) (close : Char) :
    Nat → Nat → List Char → Option (List α × List Char)
  | 0, _, _ => none
  | n + 1, i, cs => do
    let (a, rest) ← item i cs
    match skipGap rest with
    | ',' :: rest =>
      let (as, rest) ← items item close n (i + 1) rest
      some (a :: as, rest)
    | c :: rest => if c == close then some ([a], rest) else none
    | [] => none

/-- Drops the gap and the colon after a key. -/
def skipColon (cs : List Char) : Option (List Char) :=
  match skipGap cs with
  | ':' :: rest => some rest
  | _ => none

/-- Takes a key, a colon and what follows it off the front of a text. -/
def keyed {α : Type} (item : String → List Char → Option (α × List Char)) (cs : List Char) :
    Option ((String × α) × List Char) :=
  match skipGap cs with
  | '"' :: rest => do
    let (key, rest) ← string rest
    let (a, rest) ← item (String.ofList key) (← skipColon rest)
    some ((String.ofList key, a), rest)
  | _ => none

/-- Passes over a key, a colon and what follows it. -/
def skipKeyed (item : List Char → Option (List Char)) (cs : List Char) : Option (List Char) :=
  match skipGap cs with
  | '"' :: rest => do item (← skipColon (← skipString rest))
  | _ => none

/-- Passes over a non-empty list of items, separated by commas, and the closing bracket. -/
def skipItems (item : List Char → Option (List Char)) (close : Char) (cs : List Char) :
    Option (List Char) :=
  (items (fun _ cs => (item cs).map fun rest => ((), rest)) close cs.length 0 cs).map Prod.snd

/-- Passes over one document at the front of a text; arrays and objects may nest to the given
depth. -/
def skip (depth : Nat) (cs : List Char) : Option (List Char) :=
  match skipGap cs with
  | 'n' :: 'u' :: 'l' :: 'l' :: rest => some rest
  | 't' :: 'r' :: 'u' :: 'e' :: rest => some rest
  | 'f' :: 'a' :: 'l' :: 's' :: 'e' :: rest => some rest
  | '"' :: rest => skipString rest
  | '[' :: rest =>
    match depth with
    | 0 => none
    | depth + 1 =>
      match skipGap rest with
      | ']' :: rest => some rest
      | _ => skipItems (fun cs => skip depth cs) ']' rest
  | '\x7b' :: rest =>
    match depth with
    | 0 => none
    | depth + 1 =>
      match skipGap rest with
      | '\x7d' :: rest => some rest
      | _ => skipItems (skipKeyed fun cs => skip depth cs) '\x7d' rest
  | cs => (numeral cs).map Prod.snd

/-- Takes one document off the front of a text; arrays and objects may nest to the given depth.
What is not needed is passed over at any depth, and stands as null. -/
def value (depth : Nat) (wanted : Interest) (cs : List Char) : Option (Json × List Char) :=
  -- Nesting takes characters, so a text is never deeper than it is long.
  if wanted.isNothing then (skip cs.length cs).map fun rest => (.null, rest)
  else
    match skipGap cs with
    | 'n' :: 'u' :: 'l' :: 'l' :: rest => some (.null, rest)
    | 't' :: 'r' :: 'u' :: 'e' :: rest => some (.bool true, rest)
    | 'f' :: 'a' :: 'l' :: 's' :: 'e' :: rest => some (.bool false, rest)
    | '"' :: rest => (string rest).map fun (s, r) => (.string (String.ofList s), r)
    | '[' :: rest =>
      match depth with
      | 0 => none
      | depth + 1 =>
        match skipGap rest with
        | ']' :: rest => some (.array [], rest)
        | _ =>
          (items (fun i cs => value depth (wanted.item i) cs) ']' rest.length 0 rest).map
            fun (js, r) => (.array js, r)
    | '\x7b' :: rest =>
      match depth with
      | 0 => none
      | depth + 1 =>
        match skipGap rest with
        | '\x7d' :: rest => some (.object [], rest)
        | _ =>
          (items (fun _ => keyed fun key cs => value depth (wanted.member key) cs) '\x7d'
              rest.length 0 rest).map fun (ms, r) => (.object ms, r)
    | cs => do
      let ((negative, n), rest) ← numeral cs
      some (← number negative n, rest)

end Reader

/-- The needed parts of the document that a whole text holds, if they nest no deeper than
allowed. -/
def readWithin? (depth : Nat) (wanted : Interest) (text : String) : Option Json :=
  match Reader.value depth wanted text.toList with
  | some (j, rest) => if (Reader.skipGap rest).isEmpty then some j else none
  | none => none

/-- How deep arrays and objects may nest in a file. -/
def maxDepth : Nat := 127

/-- The needed parts of the document that a whole text holds. -/
def readParts? (wanted : Interest) (text : String) : Option Json := readWithin? maxDepth wanted text

/-- The document that a whole text holds. -/
def read? (text : String) : Option Json := readParts? .everything text

end Dialogue.Json
