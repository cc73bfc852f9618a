import Dialogue.Json.Reader
import Dialogue.Timestamp

/-!
# Scalars of configuration documents

Numbers, truth values and dates are runs of letters, digits and a few signs, so what a run stands
for can be told from the run alone.

## Main definitions

* `Toml.integer?`, `Toml.float?`, `Toml.dateTime?` — what a run stands for
* `Toml.scalar?` — the document of a run
-/

namespace Dialogue.Toml

/-- Digits in a given alphabet with single underscores between them, the underscores left out. -/
def digits? (isDigit : Char → Bool) : List Char → Option (List Char)
  | [] => none
  | [c] => if isDigit c then some [c] else none
  | c :: '_' :: rest => if isDigit c then (digits? isDigit rest).map (c :: ·) else none
  | c :: rest => if isDigit c then (digits? isDigit rest).map (c :: ·) else none

/-- The value of digits in a base. -/
def natOfBase (base : Nat) (ds : List Char) : Nat :=
  ds.foldl (fun n c => base * n + (Json.Reader.hexValue? c).getD 0) 0

/-- Decimal digits of a number that is written without needless zeros in front. -/
def plainDigits? (cs : List Char) : Option (List Char) := do
  let ds ← digits? Char.isDigit cs
  if ds.length == 1 || ds.head? != some '0' then some ds else none

/-- Takes a sign off the front of a run. -/
def sign : List Char → Bool × List Char
  | '-' :: rest => (true, rest)
  | '+' :: rest => (false, rest)
  | rest => (false, rest)

/-- An integer of sixty-four bits, in base ten with a sign or in base sixteen, eight or two. -/
def integer? (cs : List Char) : Option Int :=
  let based (base : Nat) (isDigit : Char → Bool) (rest : List Char) : Option Int := do
    let n := natOfBase base (← digits? isDigit rest)
    if n < UInt64.size / 2 then some n else none
  match cs with
  | '0' :: 'x' :: rest => based 16 (fun c => (Json.Reader.hexValue? c).isSome) rest
  | '0' :: 'o' :: rest => based 8 (fun c => '0' ≤ c && c ≤ '7') rest
  | '0' :: 'b' :: rest => based 2 (fun c => c == '0' || c == '1') rest
  | cs => do
    let (negative, rest) := sign cs
    let n := natOfBase 10 (← plainDigits? rest)
    if negative then (if n ≤ UInt64.size / 2 then some (-(n : Int)) else none)
    else (if n < UInt64.size / 2 then some (n : Int) else none)

/-- An exponent: its letter, a sign and digits. -/
def exponent? : List Char → Option Int
  | e :: rest =>
    if e == 'e' || e == 'E' then do
      let (negative, rest) := sign rest
      let n : Int := natOfBase 10 (← digits? Char.isDigit rest)
      some (if negative then -n else n)
    else none
  | [] => none

/-- Whether a character marks an exponent. -/
def isExponentMark (c : Char) : Bool := c == 'e' || c == 'E'

/-- A float: a fraction or an exponent or both after a plain number, infinity, or not a number. One
that is too large is refused. -/
def float? (cs : List Char) : Option Float :=
  let (negative, rest) := sign cs
  match String.ofList rest with
  | "inf" =>
    some (Float.ofBits (if negative then 0xFFF0000000000000 else 0x7FF0000000000000))
  | "nan" => some (Float.ofBits 0x7FF8000000000000)
  | _ => do
    let mantissa := rest.takeWhile fun c => !isExponentMark c
    let tail := rest.dropWhile fun c => !isExponentMark c
    let whole ← plainDigits? (mantissa.takeWhile (· != '.'))
    let fraction ← match mantissa.dropWhile (· != '.') with
      | [] => if tail.isEmpty then none else some []
      | _ :: ds => digits? Char.isDigit ds
    let exponent ← if tail.isEmpty then some 0 else exponent? tail
    let x := Decimal.nearest negative (Decimal.natOfDigits (whole ++ fraction))
      (exponent - fraction.length)
    if x == Float.ofBits 0x7FF0000000000000 then none else some x

/-- Two digits at the front of a run. -/
def two : List Char → Option (Nat × List Char)
  | a :: b :: rest =>
    if a.isDigit && b.isDigit then some (Decimal.natOfDigits [a, b], rest) else none
  | _ => none

/-- A date at the front of a run. -/
def date? (cs : List Char) : Option (List Char × List Char) := do
  let (century, rest) ← two cs
  let (year, rest) ← two rest
  let '-' :: rest := rest | none
  let (month, rest) ← two rest
  let '-' :: rest := rest | none
  let (day, rest) ← two rest
  if Timestamp.isDate (century * 100 + year : Nat) month day then some (cs.take 10, rest) else none

/-- A fraction of a second at the front of a run, cut to nine digits without zeros at the end. -/
def secondFraction (cs : List Char) : Option (List Char × List Char) :=
  match cs with
  | '.' :: rest =>
    let ds := rest.takeWhile Char.isDigit
    if ds.isEmpty then none
    else
      let kept := ((ds.take 9).reverse.dropWhile (· == '0')).reverse
      some (if kept.isEmpty then [] else '.' :: kept, rest.dropWhile Char.isDigit)
  | _ => some ([], cs)

/-- A time of day at the front of a run. -/
def time? (cs : List Char) : Option (List Char × List Char) := do
  let (hour, rest) ← two cs
  let ':' :: rest := rest | none
  let (minute, rest) ← two rest
  let ':' :: rest := rest | none
  let (second, rest) ← two rest
  let (fraction, rest) ← secondFraction rest
  if Timestamp.isTimeOfDay hour minute second then some (cs.take 8 ++ fraction, rest) else none

/-- An offset, which is all that is left of a run. An offset of nothing is kept with a plus
sign. -/
def offset? (cs : List Char) : Option (List Char) :=
  match cs with
  | [] => some []
  | ['Z'] | ['z'] => some ['Z']
  | s :: rest =>
    if s == '+' || s == '-' then do
      let (hour, after) ← two rest
      let ':' :: after := after | none
      let (minute, after) ← two after
      if hour < 24 && minute < 60 && after.isEmpty then
        some (if hour == 0 && minute == 0 then '+' :: rest else cs)
      else none
    else none

/-- A date, a time, or both with a mark between them and perhaps an offset, in the one form in which
they are kept. -/
def dateTime? (cs : List Char) : Option (List Char) :=
  match date? cs with
  | some (date, []) => some date
  | some (date, mark :: rest) =>
    if mark == 'T' || mark == 't' || mark == ' ' then do
      let (time, rest) ← time? rest
      some (date ++ 'T' :: time ++ (← offset? rest))
    else none
  | none =>
    match time? cs with
    | some (time, []) => some time
    | _ => none

/-- The member under which a date is kept. -/
def dateTimeKey : String := "$__toml_private_datetime"

/-- The document of a run. -/
def scalar? (cs : List Char) : Option Json :=
  match String.ofList cs with
  | "true" => some (.bool true)
  | "false" => some (.bool false)
  | _ =>
    match integer? cs with
    | some n => some (.int n)
    | none =>
      match float? cs with
      | some x => some (.float x)
      | none =>
        (dateTime? cs).map fun t => .object [(dateTimeKey, .string (String.ofList t))]

end Dialogue.Toml
