import Dialogue.Session.Delivery
import Dialogue.Vocabulary

/-!
# Settlement

Between two deliveries it is settled who is heard. If several instances have sent events that are
meant for the user, only the deepest of them is heard, the oldest one if several are equally deep.
What is kept is numbered and queued in the order in which it was produced. A turn goes on until the
queue is empty, or until it has delivered as many events as it may.

## Main definitions

* `Cascade.settle` — who is heard
* `Cascade.drain`, `Cascade.run` — the rest of a turn
-/

namespace Dialogue

/-- Whether the first of two speakers, each with its depth, comes before the second. -/
def comesBefore (a b : InstanceId × Nat) : Bool :=
  b.2 < a.2 || (a.2 = b.2 && compare a.1 b.1 = .lt)

/-- The speaker who is heard. -/
def heard? : List (InstanceId × Nat) → Option (InstanceId × Nat)
  | [] => none
  | s :: rest =>
    match heard? rest with
    | some t => some (if comesBefore t s then t else s)
    | none => some s

namespace Cascade

/-- Gives an event the next number. -/
def stamp (c : Cascade) (e : Event) : Event × Cascade :=
  (e.stamped (c.sequenced + 1), { c with sequenced := c.sequenced + 1 })

/-- Keeps a produced event, or drops it because another instance is heard. The events that are kept
are gathered in reverse. -/
def settleOne (winner : Option (InstanceId × Nat)) (state : Cascade × List Event) (p : Produced) :
    Cascade × List Event :=
  let (c, kept) := state
  let isOutput := c.library.vocabulary.isOutput p.event.name
  let beaten := match isOutput, winner, p.speaker with
    | true, some (w, _), some (id, _) => if id ≠ w then some (id, w) else none
    | _, _, _ => none
  match beaten with
  | some (id, w) => (c.notify (.botActionDeferred id p.event.name w), kept)
  | none =>
    let (e, c) := c.stamp p.event
    (if isOutput then { c with emitted := c.emitted.push e } else c, e :: kept)

/-- Settles who is heard, and queues what is kept. -/
def settle (c : Cascade) : Cascade :=
  let produced := c.produced.toList
  let speakers := (produced.filter fun p =>
    c.library.vocabulary.isOutput p.event.name).filterMap Produced.speaker
  let (c, kept) := produced.foldl (settleOne (heard? speakers)) ({ c with produced := #[] }, [])
  { c with queue := c.queue ++ kept.reverse }

/-- Gives the session up, because a turn did not come to an end. -/
def poison (c : Cascade) : Cascade :=
  { c with
    queue := []
    fault := some (.unreachableState
      s!"cascade did not settle within {c.limits.cascadeSteps} steps") }

/-- Delivers the queued events, and what follows from them, up to a number of deliveries. -/
def drain : Nat → Cascade → Cascade
  | budget, c =>
    match c.queue with
    | [] => c
    | e :: rest =>
      -- The last delivery that is allowed may be the one that empties the queue.
      match budget with
      | 0 => c.poison
      | budget + 1 => drain budget (({ c with queue := rest } : Cascade).deliver e).settle

/-- The rest of a turn, from what has been produced and queued. -/
def run (c : Cascade) : Turn × Session := (drain c.limits.cascadeSteps c.settle).finish

end Cascade

end Dialogue
