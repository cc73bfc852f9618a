import Dialogue.Proofs.Host.Handling
import Mathlib.Logic.Function.Basic

/-!
# Calls that overlap

A host by itself does one thing at a time. Its callers do not wait for each other, though: a session
is looked up, a message is sent to it, the session takes the message, and the answer gets back to
the caller, and anything may happen in between. Meanwhile results arrive and timers are due. Each of
these steps is one step here, and they may come in any order. Only the messages that are sent to one
session are taken one after the other.

A session runs from when it is opened, but callers find it only after it has been registered. It may
have stopped by then. A caller that has found a session may come too late as well: a message that is
not taken before the session stops is lost, and the call just returns. A caller that learns from its
answer that the turn was fatal sees to it that the session is not found any more, and so does a
caller who wants it to be closed. When the callers are gone for good, the sessions that still run
close themselves.

## Main definitions

* `Message`, `Visit` — calls in progress
* `Dealings` — what callers and observers have had to do with a session
* `Traffic`, `Traffic.Step` — a host with its callers, and what may happen next
* `Traffic.Reached` — what may have happened
-/

namespace Dialogue

/-- What a session can be told by a caller. -/
inductive Message where
  /-- To take an event in. -/
  | submit (e : Event)
  /-- To close. -/
  | close

/-- How far a call has got that concerns a session. -/
inductive Visit where
  /-- The session has been opened, and has to be registered. -/
  | opening
  /-- The session has been found, and is to be told something. -/
  | holding (m : Message)
  /-- The session has been told something, and has not answered. -/
  | sent (m : Message)
  /-- There is an answer, which may be a fatal turn. -/
  | answered (isFatal : Bool)

/-- Whether a call has been begun and has not led to a fatal turn. -/
def Visit.isUnderway : Visit → Bool
  | holding _ | sent _ | answered false => true
  | opening | answered true => false

/-- What may lead to a turn. -/
inductive Cause where
  /-- The session is opened. -/
  | activation
  /-- A caller gives an event to the session. -/
  | event
  /-- A timer is due. -/
  | timeout
  /-- An action has a result. -/
  | result
  deriving DecidableEq, Repr

/-- Whether a caller waits for the turn. -/
def Cause.isAnswered : Cause → Bool
  | activation | event => true
  | timeout | result => false

/-- What something that is due leads to. -/
def Due.cause : Due → Cause
  | timeout => .timeout
  | result _ => .result

/-- What callers and observers have had to do with a session. -/
structure Dealings where
  /-- Whether callers find the session. -/
  isKnown : Bool
  /-- Whether the session has been taken away from the callers, to be closed. -/
  isReleased : Bool
  /-- The calls in progress. -/
  visits : List Visit
  /-- The turns of the session, and what has led to each, in order. -/
  turns : List (Cause × Turn)
  /-- What observers have been told of the session, in order. -/
  told : List Notice

namespace Dealings

/-- There has been nothing to do with the session. -/
def untouched : Dealings := ⟨false, false, [], [], []⟩

/-- The session has been opened. A session whose first turn was fatal is not registered. -/
def opened (t : Turn) : Dealings where
  isKnown := false
  isReleased := false
  visits := if t.isFatal then [] else [.opening]
  turns := [(.activation, t)]
  told := []

/-- What has led to a fatal turn. -/
def fatal? (d : Dealings) : Option Cause := (d.turns.find? fun x => x.2.isFatal).map Prod.fst

end Dealings

/-- Whether a session is run. -/
def Running (r? : Option Resident) : Prop := ∃ r, r? = some r ∧ r.isStopped = false

/-- Whether something may happen to a session. A timer fires at its deadline or later. An action
that has been begun may end at any time, and have any result. -/
def Resident.Expects (r : Resident) (now : Instant) : Due → Prop
  | .timeout => ∃ deadline, r.session.nextDeadline? = some deadline ∧ deadline ≤ now
  | .result j => ∃ k ∈ r.jobs, k.call = j.call

namespace Host

/-- What a host has told the observers since. -/
def since (h h' : Host) : List Notice := h'.notices.toList.drop h.notices.size

/-- A session is destroyed, if it is there. -/
def forget (h : Host) (n : Nat) : Host :=
  match h.destroy n with
  | .ok h => h
  | .error _ => h

/-- A message has not been taken. What has been left of a session that was to be closed is not kept.
-/
def miss (h : Host) (n : Nat) : Message → Host
  | .submit _ => h
  | .close => h.forget n

/-- A session closes itself, since there are no callers any more. -/
def abandon (h : Host) (n : Nat) (r : Resident) : Host :=
  let h := h.store n { r with session := r.session.close "runtime dropped" }
  { h with residents := h.residents.erase n }

end Host

/-- A host and its callers. -/
structure Traffic where
  /-- The host, with the sessions that run. -/
  host : Host
  /-- What callers and observers have had to do with each session. -/
  dealings : Nat → Dealings
  /-- Whether there are no callers any more. -/
  isDropped : Bool

namespace Traffic

/-- A host is set up. -/
def new (library : FlowLibrary) (actions : Registry) (limits : Limits) (actionTimeout : Duration)
    (patience : Nat) : Traffic :=
  ⟨.new library actions limits actionTimeout patience, fun _ => .untouched, false⟩

/-- Whether a session is run. -/
def Runs (w : Traffic) (n : Nat) : Prop := Running (w.host.residents.get? n)

/-- The sessions that callers find. There are as many sessions as these, if anybody asks. -/
def known (w : Traffic) : List Nat :=
  (List.range w.host.opened).filter fun n => (w.dealings n).isKnown

/-- Looks a session up. Whatever a caller wants of a session that is not found, this is the answer.
-/
def lookUp (w : Traffic) (n : Nat) : Except SessionError Unit :=
  if (w.dealings n).isKnown then .ok () else .error (.sessionNotFound (toString n))

/-- Something has been done that concerns one session, and observers have been told of it. -/
def deal (w : Traffic) (n : Nat) (h : Host) (d : Dealings) : Traffic :=
  { w with
    host := h
    dealings := Function.update w.dealings n { d with told := d.told ++ w.host.since h } }

/-- What may happen next. -/
inductive Step (w : Traffic) : Traffic → Prop
  /-- Time passes. -/
  | passes (t : Instant) : Step w { w with host := { w.host with now := w.host.now.max t } }
  /-- A session is opened. -/
  | opens {flows context t h} (attended : w.isDropped = false)
    (created : w.host.create flows context = .ok (t, h)) :
    Step w (w.deal w.host.opened h (.opened t))
  /-- The session is registered. -/
  | registers {n front back} (visits : (w.dealings n).visits = front ++ .opening :: back) :
    Step w (w.deal n w.host { w.dealings n with
      isKnown := true
      visits := front ++ back ++ [.answered false] })
  /-- A caller with an event finds a session. -/
  | finds {n e} (found : w.lookUp n = .ok ()) :
    Step w (w.deal n w.host { w.dealings n with
      visits := (w.dealings n).visits ++ [.holding (.submit e)] })
  /-- A caller takes a session away to close it. -/
  | withdraws {n} (found : w.lookUp n = .ok ()) :
    Step w (w.deal n w.host { w.dealings n with
      isKnown := false
      isReleased := true
      visits := (w.dealings n).visits ++ [.holding .close] })
  /-- A message is sent to a session. -/
  | sends {n m front back} (visits : (w.dealings n).visits = front ++ .holding m :: back)
    (runs : w.Runs n) :
    Step w (w.deal n w.host { w.dealings n with visits := front ++ back ++ [.sent m] })
  /-- A caller learns that the session does not run any more. -/
  | misses {n v m front back} (visits : (w.dealings n).visits = front ++ v :: back)
    (asks : v = .holding m ∨ v = .sent m) (stopped : ¬ w.Runs n) :
    Step w (w.deal n (w.host.miss n m) { w.dealings n with
      visits := front ++ back ++ [.answered false] })
  /-- A session takes an event in. -/
  | answers {n e front back t h}
    (visits : (w.dealings n).visits = front ++ .sent (.submit e) :: back)
    (first : ∀ m, .sent m ∉ front) (runs : w.Runs n) (submitted : w.host.submit n e = .ok (t, h)) :
    Step w (w.deal n h { w.dealings n with
      visits := front ++ back ++ [.answered t.isFatal]
      turns := (w.dealings n).turns ++ [(.event, t)] })
  /-- A session refuses an event. -/
  | refuses {n e front back err}
    (visits : (w.dealings n).visits = front ++ .sent (.submit e) :: back)
    (first : ∀ m, .sent m ∉ front) (runs : w.Runs n) (submitted : w.host.submit n e = .error err) :
    Step w (w.deal n w.host { w.dealings n with visits := front ++ back ++ [.answered false] })
  /-- A session is closed. -/
  | closes {n front back} (visits : (w.dealings n).visits = front ++ .sent .close :: back)
    (first : ∀ m, .sent m ∉ front) (runs : w.Runs n) :
    Step w (w.deal n (w.host.forget n) { w.dealings n with
      visits := front ++ back ++ [.answered false] })
  /-- A session deals with something that is due. -/
  | keeps {a r t s} (resident : w.host.residents.get? a.session = some r)
    (runs : r.isStopped = false) (expected : r.Expects (w.host.now.max a.time) a.due)
    (given : a.due.give (w.host.now.max a.time) (r.session.tick (w.host.now.max a.time)) =
      .ok (t, s)) :
    Step w (w.deal a.session (w.host.keep a) { w.dealings a.session with
      turns := (w.dealings a.session).turns ++ [(a.due.cause, t)] })
  /-- A session refuses to deal with something that is due, and is stopped. -/
  | breaks {a r err} (resident : w.host.residents.get? a.session = some r)
    (runs : r.isStopped = false) (expected : r.Expects (w.host.now.max a.time) a.due)
    (given : a.due.give (w.host.now.max a.time) (r.session.tick (w.host.now.max a.time)) =
      .error err) :
    Step w (w.deal a.session (w.host.keep a) (w.dealings a.session))
  /-- A call returns. After a fatal turn, the session is not found any more. -/
  | returns {n isFatal front back}
    (visits : (w.dealings n).visits = front ++ .answered isFatal :: back) :
    Step w (w.deal n w.host { w.dealings n with
      isKnown := (w.dealings n).isKnown && !isFatal
      visits := front ++ back })
  /-- Someone takes the turns that a session has published. -/
  | follows {n r} (resident : w.host.residents.get? n = some r) :
    Step w (w.deal n (w.host.takeTurns n).2 (w.dealings n))
  /-- Observers take what they have been told. -/
  | reads : Step w { w with host := w.host.takeNotices.2 }
  /-- The callers go for good. -/
  | drops (idle : ∀ n, (w.dealings n).visits = []) :
    Step w { w with
      dealings := fun n => { w.dealings n with isKnown := false, isReleased := true }
      isDropped := true }
  /-- A session closes itself after the callers have gone. -/
  | abandons {n r} (dropped : w.isDropped = true) (resident : w.host.residents.get? n = some r)
    (runs : r.isStopped = false) : Step w (w.deal n (w.host.abandon n r) (w.dealings n))

/-- What may have happened since a host was set up. -/
inductive Reached : Traffic → Prop
  | new (library actions limits actionTimeout patience) :
    Reached (new library actions limits actionTimeout patience)
  | step {w w'} (before : Reached w) (next : w.Step w') : Reached w'

end Traffic

end Dialogue
