/-!
# Reading decimal numbers

A decimal numeral is an optional sign, digits with an optional point among them, and an optional
exponent; the words for infinity and for "not a number" count too, in any case. The number read is
the double nearest to the numeral's value.

## Main definitions

* `natOfDigits` — the value of a run of decimal digits
* `nearest` — the double nearest to `± coefficient · 10 ^ exponent`
* `Numeral` — a scanned numeral, `Numeral.scan?`, and its value
* `read?` — the number written in a whole text
-/

namespace Dialogue.Decimal

/-- The value of one decimal digit. -/
def digitValue (c : Char) : Nat := c.toNat - '0'.toNat

/-- The value of a run of decimal digits. -/
def natOfDigits (ds : List Char) : Nat := ds.foldl (fun n c => 10 * n + digitValue c) 0

/-- The double nearest to `± coefficient · 10 ^ exponent`. Numbers of more than four hundred places
before the point, or of as many zeros after it, lie outside the range of doubles. -/
def nearest (negative : Bool) (coefficient : Nat) (exponent : Int) : Float :=
  let places := (Nat.toDigits 10 coefficient).length + exponent
  let x : Float :=
    if coefficient = 0 then 0
    else if 400 < places then Float.ofBits 0x7FF0000000000000
    else if places < -400 then 0
    else Float.ofScientific coefficient (exponent < 0) exponent.natAbs
  if negative then -x else x

/-- A scanned numeral: the digits before the point, those after it, and the exponent. -/
structure Numeral where
  /-- The digits before the point. -/
  whole : List Char
  /-- The digits after the point, if there is one. -/
  fraction : Option (List Char)
  /-- The exponent, if one is written. -/
  exponent : Option Int

namespace Numeral

/-- Takes the exponent off the front of a text, if it starts with one that has a digit. -/
def scanExponent : List Char → Option (Int × List Char)
  | e :: rest =>
    if e == 'e' || e == 'E' then
      let (negative, rest) : Bool × List Char :=
        match rest with
        | '+' :: r => (false, r)
        | '-' :: r => (true, r)
        | r => (false, r)
      let ds := rest.takeWhile Char.isDigit
      if ds.isEmpty then none
      else
        let n : Int := natOfDigits ds
        some (if negative then -n else n, rest.dropWhile Char.isDigit)
    else none
  | [] => none

/-- Takes a numeral without a sign off the front of a text. -/
def scan (cs : List Char) : Numeral × List Char :=
  let whole := cs.takeWhile Char.isDigit
  let rest := cs.dropWhile Char.isDigit
  let (fraction, rest) : Option (List Char) × List Char :=
    match rest with
    | '.' :: r => (some (r.takeWhile Char.isDigit), r.dropWhile Char.isDigit)
    | r => (none, r)
  match scanExponent rest with
  | some (e, rest) => (⟨whole, fraction, some e⟩, rest)
  | none => (⟨whole, fraction, none⟩, rest)

/-- Whether any digit is written before the exponent. -/
def hasDigits (n : Numeral) : Bool :=
  !n.whole.isEmpty || n.fraction.any fun ds => !ds.isEmpty

/-- Whether the numeral is written as a whole number. -/
def isInteger (n : Numeral) : Bool := n.fraction.isNone && n.exponent.isNone

/-- The double nearest to the numeral. -/
def toFloat (n : Numeral) (negative : Bool) : Float :=
  let fraction := n.fraction.getD []
  nearest negative (natOfDigits (n.whole ++ fraction)) (n.exponent.getD 0 - fraction.length)

end Numeral

/-- The lower case of an ASCII text. -/
def lower (cs : List Char) : String := String.ofList (cs.map Char.toLower)

/-- The number written in a text, if the whole text is a number. -/
def read? (text : String) : Option Float :=
  let (negative, cs) : Bool × List Char :=
    match text.toList with
    | '-' :: r => (true, r)
    | '+' :: r => (false, r)
    | r => (false, r)
  let signed (x : Float) : Float := if negative then -x else x
  match lower cs with
  | "inf" | "infinity" => some (signed (Float.ofBits 0x7FF0000000000000))
  | "nan" => some (Float.ofBits 0x7FF8000000000000)
  | _ =>
    match Numeral.scan cs with
    | (n, []) => if n.hasDigits then some (n.toFloat negative) else none
    | _ => none

end Dialogue.Decimal
