import Dialogue.Decimal.Dyadic

/-!
# Durations and instants

Time is counted in whole nanoseconds. A number of seconds becomes the nearest number of
nanoseconds of its exact value, a tie going to the even one.

## Main definitions

* `Duration`, `Duration.ofSeconds?`, `Duration.text`
* `Duration.wait` — how long a wait lasts
* `Instant` — a time since a session was opened
* `Instant.add?` — a later instant, as long as there is one
* `Instant.nextTick` — the instant as a clock shows it
-/

namespace Dialogue

/-- A length of time in nanoseconds. -/
structure Duration where
  /-- The nanoseconds. -/
  nanos : Nat
  deriving DecidableEq, Inhabited, Repr

namespace Duration

/-- The nanoseconds in a second. -/
def nanosPerSecond : Nat := 1000000000

/-- The whole seconds of a duration. -/
def seconds (d : Duration) : Nat := d.nanos / nanosPerSecond

/-- The nanoseconds beyond the whole seconds. -/
def subseconds (d : Duration) : Nat := d.nanos % nanosPerSecond

/-- A number of whole seconds. -/
def ofNat (seconds : Nat) : Duration := ⟨seconds * nanosPerSecond⟩

/-- The duration nearest to a number of seconds. There is none for a negative number, for one that
is not finite, and for one of 2⁶⁴ seconds or more. -/
def ofSeconds? (x : Float) : Option Duration :=
  match Decimal.magnitude x with
  | .finite d =>
    if x < 0 then none
    else
      let (n, m) := d.quotient
      let nanos := Decimal.roundHalfEven (n * nanosPerSecond) m
      if nanos < UInt64.size * nanosPerSecond then some ⟨nanos⟩ else none
  | _ => none

/-- The longest wait there is: thirty years of 365 days. -/
def longestWait : Duration := ofNat (30 * 365 * 86400)

/-- How long a wait lasts that is to last for a duration: none goes on after the longest one. -/
def wait (d : Duration) : Duration := if d.nanos ≤ longestWait.nanos then d else longestWait

/-- The digits of a part of a unit, without the zeros at the end. -/
def fractionText (part unit : Nat) : String :=
  let width := (Nat.toDigits 10 unit).length - 1
  let ds := Nat.toDigits 10 part
  let padded := List.replicate (width - ds.length) '0' ++ ds
  let kept := (padded.reverse.dropWhile (· == '0')).reverse
  if kept.isEmpty then "" else "." ++ String.ofList kept

/-- A duration in its largest unit: seconds, milliseconds, microseconds or nanoseconds. -/
def text (d : Duration) : String :=
  let inUnit (unit : Nat) (name : String) : String :=
    toString (d.nanos / unit) ++ fractionText (d.nanos % unit) unit ++ name
  if nanosPerSecond ≤ d.nanos then inUnit nanosPerSecond "s"
  else if 1000000 ≤ d.nanos then inUnit 1000000 "ms"
  else if 1000 ≤ d.nanos then inUnit 1000 "µs"
  else inUnit 1 "ns"

end Duration

/-- A time since a session was opened, in nanoseconds. -/
structure Instant where
  /-- The nanoseconds. -/
  nanos : Nat
  deriving DecidableEq, Inhabited, Repr

namespace Instant

/-- When a session is opened. -/
def zero : Instant := ⟨0⟩

/-- The last instant there is: seconds are counted in sixty-three bits. -/
def last : Instant := ⟨UInt64.size / 2 * Duration.nanosPerSecond - 1⟩

/-- The instant a duration later, unless it lies beyond the last one. -/
def add? (t : Instant) (d : Duration) : Option Instant :=
  if t.nanos + d.nanos ≤ last.nanos then some ⟨t.nanos + d.nanos⟩ else none

/-- The instant a duration later. -/
def add (t : Instant) (d : Duration) : Instant := ⟨t.nanos + d.nanos⟩

instance : LE Instant := ⟨fun s t => s.nanos ≤ t.nanos⟩
instance (s t : Instant) : Decidable (s ≤ t) := inferInstanceAs (Decidable (s.nanos ≤ t.nanos))
instance : LT Instant := ⟨fun s t => s.nanos < t.nanos⟩
instance (s t : Instant) : Decidable (s < t) := inferInstanceAs (Decidable (s.nanos < t.nanos))

/-- The first tick that is not before an instant, on a clock that ticks in milliseconds. -/
def nextTick (t : Instant) : Instant := ⟨(t.nanos + 999999) / 1000000 * 1000000⟩

/-- The later of two instants. -/
def max (s t : Instant) : Instant := if s ≤ t then t else s

theorem le_max_left (s t : Instant) : s ≤ s.max t := by
  unfold max
  split
  · assumption
  · exact Nat.le_refl _

theorem le_max_right (s t : Instant) : t ≤ s.max t := by
  unfold max
  split
  · exact Nat.le_refl _
  · next h => exact Nat.le_of_not_le h

end Instant

end Dialogue
