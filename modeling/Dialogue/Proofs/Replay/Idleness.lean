import Dialogue.Proofs.Replay.Midway
import Dialogue.Proofs.Replay.Waiting

/-!
# Nothing is left between steps

All actions that a session asks for in a step are run in that step. A call whose request has been
taken up is answered, whatever becomes of the instance that waits for it, and requests that come up
meanwhile are taken up before the next turn is written down. So when a step has come to its end,
there is no call without a result and no request that nobody has taken.

## Main definitions

* `Calls.Outstanding` — the calls whose result has to come from outside
* `Calls.IsIdle` — no call is left
* `Replay.Midway.Accounted` — what is outstanding is about to be answered

## Main results

* `Replay.Midway.Goes.accounted` — this is so all through a step
* `Replay.nothing_left_between_steps` — nothing is left when a step has come to its end
-/

namespace Dialogue

namespace Calls

variable {c d : Calls} {id : CallId} {ids : List CallId}

/-- Every call whose request has been taken, and whose result has not come, is one of those that
are listed. A cancelled call is such a call, too. -/
def Outstanding (c : Calls) (ids : List CallId) : Prop :=
  ∀ id s, c.stage? id = some s → s.isQueued = false → id ∈ ids

/-- No call is without its result, and no request is queued. -/
structure IsIdle (c : Calls) : Prop where
  pending : c.pending = ∅
  queue : c.queue = []

theorem IsIdle.outstanding (h : c.IsIdle) : c.Outstanding [] := by
  intro id s hs
  rw [stage?, h.pending] at hs
  cases hs

/-- If nothing is outstanding and nothing is queued, no call is left. -/
theorem Outstanding.isIdle (h : c.Outstanding []) (queue : c.queue = []) : c.IsIdle := by
  refine ⟨Table.ext_get? fun id => ?_, queue⟩
  cases pending : c.pending.get? id with
  | none => rfl
  | some call =>
    have stage : c.stage? id = some ⟨call.owner, call.action, call.isCancelled, false⟩ := by
      rw [stage?, pending, queue]
      rfl
    exact absurd (h id _ stage rfl) List.not_mem_nil

/-- Instances make calls outstanding by no means: a new call is queued, and a call that is dropped
has been outstanding before if it still is. -/
theorem Outstanding.apply (h : c.Outstanding ids) {o : Operation} (ho : o.isOfInstances = true) :
    (c.apply o).Outstanding ids := by
  intro id s hs unqueued
  -- Instances take up no requests, so a call that is not queued has not been queued before.
  have dropped {t : Stage} (ht : c.stage? id = some t) (hnext : t.next id o = some s) : id ∈ ids :=
    h id t ht <| by
      rw [← Stage.isQueued_next hnext (by rintro rfl; cases ho)]
      exact unqueued
  cases o with
  | start owner action params =>
    rw [Calls.apply, stage?_start] at hs
    split at hs
    · obtain rfl := Option.some.inj hs
      cases unqueued
    · exact h id s hs unqueued
  | cancel k =>
    rw [Calls.apply, stage?_cancel] at hs
    split at hs
    · next same =>
      obtain ⟨t, ht, hnext⟩ := Option.bind_eq_some_iff.1 hs
      exact dropped ht ((if_pos same).trans hnext)
    · exact h id s hs unqueued
  | cancelOwned owner =>
    rw [Calls.apply, stage?_cancelOwned] at hs
    obtain ⟨t, ht, hnext⟩ := Option.bind_eq_some_iff.1 hs
    exact dropped ht hnext
  | takeRequests => cases ho
  | complete k => cases ho
  | clear => cases ho

theorem Outstanding.works (h : c.Outstanding ids) (works : c.Works d) : d.Outstanding ids := by
  obtain ⟨os, made, rfl⟩ := works
  induction os generalizing c with
  | nil => exact h
  | cons o rest ih =>
    obtain ⟨first, others⟩ := List.forall_mem_cons.1 made
    exact ih (h.apply first) others

/-- A call that has its result is not outstanding any more. -/
theorem Outstanding.complete (h : c.Outstanding (id :: ids)) :
    (c.complete id).2.Outstanding ids := by
  intro k s hs unqueued
  rw [stage?_complete] at hs
  split at hs
  · cases hs
  · next other => exact (List.mem_cons.1 (h k s hs unqueued)).resolve_left (Ne.symm other)

/-- What is outstanding after the requests have been taken is what has been taken. -/
theorem Outstanding.takeRequests (h : c.Outstanding []) :
    c.takeRequests.2.Outstanding (c.takeRequests.1.map ActionRequest.call) := by
  intro k s hs _
  rw [stage?_takeRequests] at hs
  obtain ⟨t, ht, -⟩ := Option.map_eq_some_iff.1 hs
  cases queued : t.isQueued with
  | false => exact absurd (h k t ht queued) List.not_mem_nil
  | true =>
    obtain ⟨call, -, rfl⟩ := Option.map_eq_some_iff.1 ht
    obtain ⟨r, hr, same⟩ := List.any_eq_true.1 queued
    exact List.mem_map.2 ⟨r, hr, of_decide_eq_true same⟩

end Calls

namespace Session

variable {s s' : Session} {t : Turn}

/-- What is outstanding after an operation has been so before, and the operation has not brought its
result. -/
theorem outstanding_of_perform? (hs : s.Sound) {o : Operation} {ids : List CallId}
    (h : s.perform? o = some (t, s')) (before : (o.receives s.calls).Outstanding ids) :
    s'.Sound ∧ s'.calls.Outstanding ids := by
  have applied : s.apply o = s' := by rw [apply_eq_perform?, h]
  exact ⟨applied ▸ sound_apply hs o, before.works (serves_perform? hs h).calls⟩

end Session

namespace Replay

namespace Midway

variable {m m' : Midway} {ts : List Turn} {x : Replay × Option ReplayError}

/-- What is outstanding has been taken up and is about to be answered, and if nothing is left to be
written down, the session does not ask for anything. -/
structure Accounted (m : Midway) : Prop where
  sound : m.replay.session.Sound
  outstanding : m.replay.session.calls.Outstanding (m.unanswered.map ActionRequest.call)
  asked : m.unwritten = [] → m.unanswered = [] → m.replay.session.calls.queue = []

theorem Goes.accounted (goes : m.Goes ts m') (h : m.Accounted) : m'.Accounted := by
  cases goes with
  | @takes r agenda i later t session next given =>
    have performed : r.session.perform? i.operation = some (t, session) := by
      rw [← i.toOption_give, given]
      rfl
    have before : (i.operation.receives r.session.calls).Outstanding [] := by
      cases i <;> exact h.outstanding
    obtain ⟨sound, outstanding⟩ := Session.outstanding_of_perform? h.sound performed before
    exact ⟨sound, outstanding, by simp⟩
  | @writes r agenda t rest fine =>
    -- Printing leaves the session alone. What was queued has become outstanding.
    have same : (takenUp r t).session = r.session.takeRequests.2 := by
      show (r.print t).session.takeRequests.2 = _
      rw [session_print]
    have requests : (r.print t).session.takeRequests.1 = r.session.takeRequests.1 := by
      rw [session_print]
    have sound := h.sound
    refine ⟨?_, ?_, fun _ _ => ?_⟩
    · rw [same]
      exact Session.sound_apply h.sound .takeRequests
    · rw [same, requests]
      exact h.outstanding.takeRequests
    · rw [same]
      rfl
  | @answers r agenda turns request rest t session completed =>
    let o : Operation := .completeCall request.call (r.answerTo request).result
    -- The call that is answered is no longer outstanding; those behind it still are.
    have performed : (r.elapse request).session.perform? o = some (t, session) := by
      show ((r.elapse request).session.completeCall _ _).toOption = _
      rw [completed]
      rfl
    have before : (o.receives (r.elapse request).session.calls).Outstanding
        (rest.map ActionRequest.call) := Calls.Outstanding.complete h.outstanding
    obtain ⟨sound, outstanding⟩ :=
      Session.outstanding_of_perform? (Session.sound_tick h.sound _) performed before
    exact ⟨sound, outstanding, by simp⟩

end Midway

/-- A replay between two steps: no call is left, unless the session does not take inputs any more.
-/
structure Rested (r : Replay) : Prop where
  sound : r.session.Sound
  live : r.session.checkOpen = .ok () → r.isDiscarded = false
  idle : r.session.checkOpen = .ok () → r.session.calls.IsIdle

namespace Midway

variable {m m' : Midway} {ts : List Turn} {x : Replay × Option ReplayError}

theorem Accounted.isIdle {r : Replay} {agenda : Agenda}
    (h : (⟨r, agenda, [], []⟩ : Midway).Accounted) : r.session.calls.IsIdle :=
  h.outstanding.isIdle (h.asked rfl rfl)

/-- When a step ends, no call is left, unless the session does not take inputs any more. -/
theorem Stops.rested (stops : m.Stops x) (h : m.Accounted) (honest : m.Honest)
    (live : m.replay.isDiscarded = false) :
    x.1.Rested ∧ (x.2 = none → x.1.isDiscarded = false → x.1.session.calls.IsIdle) := by
  cases stops with
  | done => exact ⟨⟨h.sound, fun _ => live, fun _ => h.isIdle⟩, fun _ _ => h.isIdle⟩
  | beyond => exact ⟨⟨h.sound, fun _ => live, fun _ => h.isIdle⟩, by simp⟩
  | refused => exact ⟨⟨h.sound, fun _ => live, fun _ => h.isIdle⟩, by simp⟩
  | @fatal r agenda t rest fatal =>
    -- A turn is fatal only if the session is poisoned, and then it takes no inputs.
    have fault : r.session.fault.isSome := honest t List.mem_cons_self fatal
    have same : (r.print t).session = r.session := session_print r t
    have refuses : (r.print t).session.checkOpen ≠ .ok () := fun isOpen => by
      rw [same] at isOpen
      rw [(Session.checkOpen_eq_ok_iff.1 isOpen).1] at fault
      cases fault
    exact ⟨⟨same.symm ▸ h.sound, fun isOpen => absurd isOpen refuses,
      fun isOpen => absurd isOpen refuses⟩, by simp⟩
  | @unanswered r agenda turns request rest e completed =>
    have refuses : (r.elapse request).session.checkOpen ≠ .ok () := fun isOpen => by
      rw [Session.completeCall_eq isOpen] at completed
      cases completed
    exact ⟨⟨Session.sound_tick h.sound _, fun isOpen => absurd isOpen refuses,
      fun isOpen => absurd isOpen refuses⟩, by simp⟩

theorem Leads.rested (leads : m.Leads x) (h : m.Accounted) (honest : m.Honest)
    (live : m.replay.isDiscarded = false) :
    x.1.Rested ∧ (x.2 = none → x.1.isDiscarded = false → x.1.session.calls.IsIdle) := by
  induction leads with
  | stops stops => exact stops.rested h honest live
  | goes goes _ ih => exact ih (goes.accounted h) (goes.honest honest) (goes.isDiscarded.trans live)

end Midway

variable {r : Replay} {c : Cue}

/-- No call is left by a step of a replay that has rested, unless the session does not take inputs
any more. -/
theorem Rested.follow (h : r.Rested) (ends : (r.follow c).2 ≠ some .endless) :
    (r.follow c).1.Rested ∧ ((r.follow c).2 = none → (r.follow c).1.isDiscarded = false →
      (r.follow c).1.session.calls.IsIdle) := by
  have leads := leads_follow r c ends
  obtain ⟨transcript, agenda, begun, nothing⟩ := begin_spec r c
  rw [begun] at leads
  by_cases isOpen : r.session.checkOpen = .ok ()
  · have idle := h.idle isOpen
    exact leads.rested ⟨h.sound, idle.outstanding, fun _ _ => idle.queue⟩
      (fun _ ht => absurd ht List.not_mem_nil) (h.live isOpen)
  -- A session that does not take inputs refuses the first one, and nothing else happens.
  · have refuses : ∀ {o t s'}, r.session.perform? o ≠ some (t, s') := fun performed =>
      isOpen (Session.checkOpen_of_perform? performed)
    generalize r.follow c = x at leads ⊢
    have same : Rested { r with transcript } :=
      ⟨h.sound, fun h => absurd h isOpen, fun h => absurd h isOpen⟩
    cases leads with
    | stops stops =>
      cases stops with
      | done => exact ⟨same, fun _ live => absurd ((nothing rfl).symm.trans live) (by simp)⟩
      | beyond => exact ⟨same, by simp⟩
      | refused => exact ⟨same, by simp⟩
    | goes goes =>
      cases goes with
      | @takes _ _ i _ t session _ given =>
        have performed : r.session.perform? i.operation = some (t, session) := by
          rw [← i.toOption_give, given]
          rfl
        exact absurd performed refuses

theorem Reached.follow {r₀ : Replay} (h : Reached r₀ r) (c : Cue)
    (ends : (r.follow c).2 ≠ some .endless) : Reached r₀ (r.follow c).1 := by
  cases c with
  | start flows => exact .start h flows ends
  | play s => exact .step h s ends

theorem Reached.rested {r₀ : Replay} (h : Reached r₀ r) (start : r₀.Rested) : r.Rested := by
  induction h with
  | new => exact start
  | start _ flows ends ih => exact (ih.follow (c := .start flows) ends).1
  | step _ s ends ih => exact (ih.follow (c := .play s) ends).1

end Replay

end Dialogue
