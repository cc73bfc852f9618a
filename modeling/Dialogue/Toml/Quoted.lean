/-!
# Quoted strings in configuration documents

A string is written so that it reads well: between double quotes if nothing in it needs an escape,
else between single quotes, between three quotes if it has lines or both kinds of quotes, and with
escapes if nothing else will do.

## Main definitions

* `Toml.Quotes`, `Toml.Quotes.ofChars` — the four ways to quote a string, and the one that is taken
* `Toml.quoted` — a string in quotes
-/

namespace Dialogue.Toml

/-- The ways to quote a string. -/
inductive Quotes where
  /-- Double quotes, with escapes, on one line. -/
  | basic
  /-- Single quotes, without escapes, on one line. -/
  | literal
  /-- Three double quotes, with escapes, on any number of lines. -/
  | basicLines
  /-- Three single quotes, without escapes, on any number of lines. -/
  | literalLines
  deriving DecidableEq

/-- Whether a character can be written as an escape only: the controls, but for tabs and line
ends. -/
def isUnprintable (c : Char) : Bool :=
  (c.toNat < 0x20 && c != '\t' && c != '\n') || c.toNat == 0x7F

/-- The length of the longest run of a character. -/
def longestRun (c : Char) (cs : List Char) : Nat :=
  (cs.foldl
    (fun (acc : Nat × Nat) d => if d == c then (max acc.1 (acc.2 + 1), acc.2 + 1) else (acc.1, 0))
    (0, 0)).1

namespace Quotes

/-- The way to quote a string. -/
def ofChars (cs : List Char) : Quotes :=
  let plain := !cs.any isUnprintable
  let plainBasic := plain && !cs.contains '\\'
  let singles := longestRun '\'' cs
  let doubles := longestRun '"' cs
  let hasLines := cs.contains '\n'
  if plainBasic && doubles == 0 && !hasLines then basic
  else if plain && singles == 0 && !hasLines then literal
  else if plainBasic && doubles ≤ 2 then basicLines
  else if plain && singles ≤ 2 then literalLines
  else if hasLines then basicLines
  else basic

/-- The quotes before and after the string. -/
def delimiter : Quotes → String
  | basic => "\""
  | literal => "'"
  | basicLines => "\"\"\""
  | literalLines => "'''"

/-- Whether a string in such quotes may have line ends. -/
def isLines : Quotes → Bool
  | basicLines | literalLines => true
  | basic | literal => false

/-- Whether a backslash begins an escape in such quotes. -/
def hasEscapes : Quotes → Bool
  | basic | basicLines => true
  | literal | literalLines => false

end Quotes

/-- An upper-case hexadecimal digit. -/
def upperHexDigit (n : Nat) : Char := (Nat.digitChar n).toUpper

/-- How a character other than the double quote stands between double quotes. -/
def escapedChar (isLines : Bool) (c : Char) : List Char :=
  match c with
  | '\x08' => ['\\', 'b']
  | '\t' => ['\\', 't']
  | '\n' => if isLines then ['\n'] else ['\\', 'n']
  | '\x0c' => ['\\', 'f']
  | '\r' => ['\\', 'r']
  | '\\' => ['\\', '\\']
  | c =>
    if isUnprintable c then
      ['\\', 'u', '0', '0', upperHexDigit (c.toNat / 16), upperHexDigit (c.toNat % 16)]
    else [c]

/-- The characters of a string as they stand between double quotes, after so many double quotes in
a row that stand for themselves. Between three double quotes, two in a row may do so. -/
def escaped (isLines : Bool) : Nat → List Char → List Char
  | _, [] => []
  | run, '"' :: cs =>
    if isLines && run < 2 then '"' :: escaped isLines (run + 1) cs
    else '\\' :: '"' :: escaped isLines 0 cs
  | _, c :: cs => escapedChar isLines c ++ escaped isLines 0 cs

/-- A string in quotes. If it has lines, it begins on a line of its own. -/
def quoted (s : String) : String :=
  let cs := s.toList
  let quotes := Quotes.ofChars cs
  let lineEnd := if quotes.isLines && cs.contains '\n' then "\n" else ""
  let body := if quotes.hasEscapes then String.ofList (escaped quotes.isLines 0 cs) else s
  quotes.delimiter ++ lineEnd ++ body ++ quotes.delimiter

end Dialogue.Toml
