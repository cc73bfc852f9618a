import Dialogue.Decimal.Shortest

/-!
# How digits are laid out

The text of a float is its shortest digits in a layout. A layout says which numbers are written
positionally, what follows a whole number, and how an exponent is marked.

## Main definitions

* `Layout` — the decisions of one output format
* `Layout.float` — the text of a double
* `Layout.plain`, `Layout.document`, `Layout.dump` — the three formats of this library
-/

namespace Dialogue.Decimal

/-- The decisions of an output format for floats. -/
structure Layout where
  /-- A number below one is written positionally if its digits start after at most this many
  zeros; `none` puts no limit. -/
  zerosBefore : Option Nat
  /-- A number is written positionally if its point stands after at most this many places; `none`
  puts no limit. -/
  places : Option Nat
  /-- What follows a whole number. -/
  whole : String
  /-- The mark before an exponent that is not negative. -/
  plus : String
  /-- Which digits are written if two texts of the fewest digits are equally near. -/
  tie : Tie

namespace Layout

/-- Messages and rendered text write floats positionally, however long that is. -/
def plain : Layout := ⟨none, none, "", "", .away⟩

/-- Documents write an exponent from ten to the sixteenth on, and below ten to the minus fifth. -/
def document : Layout := ⟨some 4, some 16, ".0", "+", .even⟩

/-- Dumps of tokens write an exponent from ten to the sixteenth on, and below ten to the minus
fourth. -/
def dump : Layout := ⟨some 3, some 16, ".0", "", .away⟩

/-- Whether a number with this point is written positionally. -/
def isPositional (l : Layout) (point : Int) : Bool :=
  l.zerosBefore.all (fun z => -(z : Int) ≤ point) && l.places.all (fun p => point ≤ p)

/-- The digits with a point between them. -/
def positional (l : Layout) (d : Digits) : String :=
  if d.point ≤ 0 then
    "0." ++ String.ofList (List.replicate (-d.point).toNat '0' ++ d.digits)
  else if d.digits.length ≤ d.point then
    String.ofList (d.digits ++ List.replicate (d.point.toNat - d.digits.length) '0') ++ l.whole
  else
    String.ofList (d.digits.take d.point.toNat) ++ "."
      ++ String.ofList (d.digits.drop d.point.toNat)

/-- One digit before the point, and the exponent that moves it. -/
def exponential (l : Layout) (d : Digits) : String :=
  let exponent := d.point - 1
  let mark := if exponent < 0 then "-" else l.plus
  let rest := if d.digits.length ≤ 1 then "" else "." ++ String.ofList (d.digits.drop 1)
  String.ofList (d.digits.take 1) ++ rest ++ "e" ++ mark ++ toString exponent.natAbs

/-- The text of a number without its sign. -/
def digits (l : Layout) (d : Digits) : String :=
  if d.digits.isEmpty then "0" ++ l.whole
  else if l.isPositional d.point then l.positional d
  else l.exponential d

/-- The text of a double: the sign, then the shortest digits that read back. -/
def float (l : Layout) (x : Float) : String :=
  let sign := if isNegative x then "-" else ""
  match magnitude x with
  | .nan => "NaN"
  | .infinite => sign ++ "inf"
  | .finite d => sign ++ l.digits (shortest l.tie d)

end Layout

end Dialogue.Decimal
