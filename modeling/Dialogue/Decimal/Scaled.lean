import Dialogue.Decimal.Dyadic
import Dialogue.Decimal.Reader

/-!
# Scaled reading of decimal numbers

Documents are full of numbers, so theirs are read in machine arithmetic: the leading digits that fit
sixty-four bits make a whole number, which is scaled by a power of ten. The whole number, the power
and their product or quotient are each rounded to a double, so the number read may miss the nearest
double by a little, and writing it may show other digits than were read.

## Main definitions

* `leadingDigits` — the value of the digits that fit, and the digits that do not
* `Decimal.scale?` — a double times a power of ten
* `Numeral.scaled?` — the double that a numeral in a document stands for
-/

namespace Dialogue.Decimal

/-- The value of the digits that fit sixty-four bits, after a value that fits, and the digits from
the first one on that does not. -/
def leadingDigits : Nat → List Char → Nat × List Char
  | n, [] => (n, [])
  | n, c :: cs =>
    let next := 10 * n + digitValue c
    if next < UInt64.size then leadingDigits next cs else (n, c :: cs)

/-- The largest power of ten that is a double. -/
def maxPower : Nat := 308

/-- The double nearest to a power of ten. -/
def powerOfTen (k : Nat) : Float := nearest false 1 k

/-- A double that is not negative times `10 ^ exponent`. There is no double for what is too large.
What is so small that one power of ten does not do is divided twice; what needs more is zero, if the
double was a whole number of sixty-four bits. -/
def scale? (x : Float) (exponent : Int) : Option Float :=
  if 0 ≤ exponent then
    if exponent ≤ maxPower then
      let y := x * powerOfTen exponent.toNat
      if isFinite y then some y else none
    else if x == 0 then some x
    else none
  else if -maxPower ≤ exponent then some (x / powerOfTen (-exponent).toNat)
  else if -(2 * maxPower) ≤ exponent then
    some (x / powerOfTen maxPower / powerOfTen (-exponent - maxPower).toNat)
  else some 0

/-- The double that a numeral in a document stands for, unless it is too large. A digit before the
point that does not fit counts as a zero, one behind the point is dropped. -/
def Numeral.scaled? (n : Numeral) (negative : Bool) : Option Float :=
  let (whole, dropped) := leadingDigits 0 n.whole
  let fraction := n.fraction.getD []
  let (coefficient, rest) := leadingDigits whole fraction
  let exponent : Int :=
    n.exponent.getD 0 + dropped.length - (fraction.length - rest.length : Nat)
  (scale? (Float.ofNat coefficient) exponent).map fun x => if negative then -x else x

end Dialogue.Decimal
