/-!
# The exact value of a float

A finite double is a sign and a natural number times a power of two. Everything that has to be
exact about floats (their shortest decimal text, their conversion to nanoseconds, whether they are
whole) is said of that pair.

## Main definitions

* `Dyadic` — `mantissa · 2 ^ exponent`
* `Magnitude` — the absolute value of a double: not a number, infinite, or a dyadic number
* `roundHalfEven` — the natural number nearest to a quotient, ties going to the even one
-/

namespace Dialogue.Decimal

/-- The number `mantissa · 2 ^ exponent`. -/
structure Dyadic where
  /-- The natural factor. -/
  mantissa : Nat
  /-- The power of two. -/
  exponent : Int
  deriving DecidableEq, Repr

namespace Dyadic

/-- The number as a quotient of two naturals, the second positive. -/
def quotient (d : Dyadic) : Nat × Nat :=
  if 0 ≤ d.exponent then (d.mantissa <<< d.exponent.toNat, 1)
  else (d.mantissa, 1 <<< (-d.exponent).toNat)

/-- Whether the number is a natural number. -/
def isWhole (d : Dyadic) : Bool :=
  let (n, m) := d.quotient
  n % m == 0

/-- The largest natural number that is not larger. -/
def floor (d : Dyadic) : Nat :=
  let (n, m) := d.quotient
  n / m

end Dyadic

/-- The absolute value of a double. -/
inductive Magnitude where
  | nan
  | infinite
  | finite (value : Dyadic)
  deriving DecidableEq, Repr

/-- The leading bit of a mantissa, behind which fifty-two bits stand. -/
def leadingBit : Nat := 1 <<< 52

/-- Whether the sign bit of a double is set. -/
def isNegative (x : Float) : Bool := x.toBits.toNat >>> 63 == 1

/-- Reads the absolute value of a double off its bits: eleven bits of exponent, then fifty-two of
fraction, with the leading one left out unless the exponent field is zero. -/
def magnitude (x : Float) : Magnitude :=
  let bits := x.toBits.toNat % (1 <<< 63)
  let exponent : Nat := bits / leadingBit
  let fraction : Nat := bits % leadingBit
  if exponent = 2047 then
    if fraction = 0 then .infinite else .nan
  else if exponent = 0 then .finite ⟨fraction, -1074⟩
  else .finite ⟨leadingBit + fraction, (exponent : Int) - 1075⟩

/-- Whether a double is neither infinite nor not a number. -/
def isFinite (x : Float) : Bool :=
  match magnitude x with
  | .finite _ => true
  | _ => false

/-- The natural number nearest to `n / m`; a quotient halfway between two goes to the even one. -/
def roundHalfEven (n m : Nat) : Nat :=
  let q := n / m
  let r := n % m
  if 2 * r < m then q
  else if m < 2 * r then q + 1
  else if q % 2 = 0 then q else q + 1

end Dialogue.Decimal
