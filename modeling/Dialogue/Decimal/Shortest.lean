import Dialogue.Decimal.Dyadic

/-!
# The fewest digits that read back

The reals that round to a given double form an interval around it. Among the decimal numbers in
that interval there are some with the fewest digits; of those the one nearest to the double is its
shortest decimal text. A point of the decimal grid lies in the interval only if one of the two grid
points next to the double does, so the search looks at those two, on finer and finer grids. A double
may lie halfway between the two; which of them is taken then is a decision of the output format.

## Main definitions

* `Tie` — how a double halfway between two grid points is written
* `Digits` — a decimal number `0.d₁d₂… · 10 ^ point`
* `Rounding` — the interval of reals that round to a dyadic number
* `shortest` — the shortest digits of a dyadic number
-/

namespace Dialogue.Decimal

/-- The decimal number `0.d₁d₂… · 10 ^ point`, without a digit zero at either end. -/
structure Digits where
  /-- The decimal digits, as characters. -/
  digits : List Char
  /-- The power of ten. -/
  point : Int
  deriving DecidableEq, Repr

/-- The digits of `coefficient · 10 ^ exponent`. -/
def Digits.ofNat (coefficient : Nat) (exponent : Int) : Digits :=
  if coefficient = 0 then ⟨[], 0⟩
  else
    let ds := Nat.toDigits 10 coefficient
    ⟨(ds.reverse.dropWhile (· == '0')).reverse, ds.length + exponent⟩

/-- How a number halfway between two neighbours on a grid is rounded. -/
inductive Tie where
  /-- To the neighbour that is further from zero. -/
  | away
  /-- To the neighbour with the even last digit. -/
  | even
  deriving DecidableEq

/-- The reals that round to a double, each bound as a numerator over one denominator. -/
structure Rounding where
  /-- Below this a real rounds to the next smaller double. -/
  low : Nat
  /-- The double itself. -/
  value : Nat
  /-- Above this a real rounds to the next larger double. -/
  high : Nat
  /-- The denominator of all three. -/
  denominator : Nat
  /-- Whether the bounds themselves round to the double. -/
  closed : Bool

namespace Rounding

/-- The rounding interval of a positive double reaches half way to its neighbours. The neighbour
below a power of two is only half as far away, and the bounds belong to the even mantissa. -/
def ofDyadic (d : Dyadic) : Rounding :=
  let (up, down) : Nat × Nat :=
    if 2 ≤ d.exponent then (1 <<< (d.exponent - 2).toNat, 1)
    else (1, 1 <<< (2 - d.exponent).toNat)
  let narrow := d.mantissa = leadingBit ∧ -1074 < d.exponent
  { low := (if narrow then 4 * d.mantissa - 1 else 4 * d.mantissa - 2) * up
    value := 4 * d.mantissa * up
    high := (4 * d.mantissa + 2) * up
    denominator := down
    closed := d.mantissa % 2 == 0 }

/-- Whether the upper one of two neighbours on a grid is nearer to a number, given a multiple of
that number and of the point halfway between them. -/
def isUpper (tie : Tie) (lower : Nat) (halfway number : Nat) : Bool :=
  halfway < number || (halfway == number && (tie == .away || lower % 2 == 1))

/-- The point of the grid of multiples of `10 ^ k` that lies in the interval nearest to the value,
if there is one. -/
def onGrid (r : Rounding) (tie : Tie) (k : Int) : Option Nat :=
  let (unit, scale) : Nat × Nat :=
    if 0 ≤ k then (Nat.pow 10 k.toNat * r.denominator, 1)
    else (r.denominator, Nat.pow 10 (-k).toNat)
  let inside (c : Nat) : Bool :=
    if r.closed then r.low * scale ≤ c * unit && c * unit ≤ r.high * scale
    else r.low * scale < c * unit && c * unit < r.high * scale
  -- If any point of the grid lies in the interval, so does one of the two around the value.
  let c := r.value * scale / unit
  if inside c then
    if inside (c + 1) && isUpper tie c ((2 * c + 1) * unit) (2 * r.value * scale) then some (c + 1)
    else some c
  else if inside (c + 1) then some (c + 1)
  else none

/-- The power of ten of the value's leading digit. -/
def leading (r : Rounding) : Int :=
  if r.denominator ≤ r.value then
    ((Nat.toDigits 10 (r.value / r.denominator)).length : Int) - 1
  else
    -((Nat.toDigits 10 ((r.denominator - 1) / r.value)).length : Int)

end Rounding

/-- The shortest digits that read back as the given double. Seventeen always suffice. -/
def shortest (tie : Tie) (d : Dyadic) : Digits :=
  if d.mantissa = 0 then ⟨[], 0⟩
  else
    let r := Rounding.ofDyadic d
    let grids := (List.range 17).map fun (n : Nat) => r.leading - n
    match grids.findSome? fun k => (r.onGrid tie k).map fun c => (c, k) with
    | some (c, k) => .ofNat c k
    | none => ⟨[], 0⟩

end Dialogue.Decimal
