import Dialogue.Duration
import Dialogue.Identifier

/-!
# Timers

A suspended flow that does not want to wait for ever has a timer. Timers that are due are taken
out together, the earliest deadline first; of two with one deadline the older comes first.

## Main definitions

* `Timer`, `Timers`
* `Timers.arm`, `Timers.cancel`, `Timers.takeDue`
* `Timers.nextDeadline?`
-/

namespace Dialogue

/-- When an instance gives up waiting. -/
structure Timer where
  /-- When the time is up. -/
  deadline : Instant
  /-- The instance that waits. -/
  owner : InstanceId
  deriving Repr

/-- The timers of a session. -/
structure Timers where
  /-- The timers that are armed. -/
  armed : Table TimerId Timer
  /-- How many there have been. -/
  issued : Nat
  deriving Inhabited

namespace Timers

/-- No timers. -/
def none : Timers := ⟨∅, 0⟩

/-- Arms a timer, under a new identifier. -/
def arm (t : Timers) (deadline : Instant) (owner : InstanceId) : TimerId × Timers :=
  let id : TimerId := ⟨t.issued + 1⟩
  (id, ⟨t.armed.insert id ⟨deadline, owner⟩, t.issued + 1⟩)

/-- Takes a timer out. -/
def cancel (t : Timers) (id : TimerId) : Timers := { t with armed := t.armed.erase id }

/-- Takes all timers out. -/
def clear (t : Timers) : Timers := { t with armed := ∅ }

/-- The timers that are due, the earliest first. -/
def due (t : Timers) (now : Instant) : List (TimerId × Timer) :=
  (t.armed.entries.filter fun e => e.2.deadline ≤ now).mergeSort
    fun a b => a.2.deadline ≤ b.2.deadline

/-- Takes the timers out that are due, the earliest first. -/
def takeDue (t : Timers) (now : Instant) : List (TimerId × InstanceId) × Timers :=
  ((t.due now).map fun e => (e.1, e.2.owner),
    { t with armed := t.armed.filter fun _ timer => now < timer.deadline })

/-- The earlier of an instant and one that may be missing. -/
def earlier (a : Instant) : Option Instant → Option Instant
  | .none => some a
  | some b => some (if b < a then b else a)

/-- The earliest deadline. -/
def nextDeadline? (t : Timers) : Option Instant :=
  t.armed.values.foldr (fun timer rest => earlier timer.deadline rest) .none

/-- The number of armed timers. -/
def size (t : Timers) : Nat := t.armed.size

end Timers

end Dialogue
