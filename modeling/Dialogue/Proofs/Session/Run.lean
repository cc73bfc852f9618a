import Dialogue.Proofs.Session.History

/-!
# Runs of a session

A run is a list of operations on a session. An operation that is refused changes nothing. The others
either are a turn, or only take something out of the session, or let time pass. Time may pass beyond
a deadline before anybody sees to it that the timer fires. Between the quiet changes of a turn
nothing happens to the instances: events are numbered and queued, results come in, timers fire.

## Main definitions

* `Operation`, `Session.apply` — what can be done with a session
* `Session.turn?`, `Session.perform?` — where the turn of an operation begins, and what comes of it
* `Session.history`, `Session.historyOf` — the moments of an operation, and of a run
* `Cascade.Passes` — all that may happen between two moments of a run

## Main results

* `Session.submit_eq`, `Session.start_of_launchAll`, `Session.abort_eq`, … — what an input comes to:
  a refusal, or the turn it begins, run to its end
* `Session.perform?_eq`, `Session.apply_eq` — an operation is a turn, or has no moments
* `Session.path_historyOf` — the history of a run is a path
-/

namespace Dialogue

open Relation (ReflTransGen)

/-! ## Operations -/

/-- What can be done with a session. -/
inductive Operation where
  | start (mainFlows : List String)
  | startFlow (flow : String) (args : Params)
  | submit (e : Event)
  | completeCall (call : CallId) (result : Except ActionError Value)
  | fireTimers (now : Instant)
  | abort (id : InstanceId) (reason : String)
  | takeRequests
  | takeNotices
  | close (reason : String)
  /-- Time passes, and nothing is done. -/
  | elapse (now : Instant)

namespace Session

/-- The session after an operation. One that is refused changes nothing. -/
def apply (s : Session) : Operation → Session
  | .start flows => match s.start flows with
    | .ok (_, s') => s'
    | .error _ => s
  | .startFlow flow args => match s.startFlow flow args with
    | .ok (_, _, s') => s'
    | .error _ => s
  | .submit e => match s.submit e with
    | .ok (_, s') => s'
    | .error _ => s
  | .completeCall call result => match s.completeCall call result with
    | .ok (_, s') => s'
    | .error _ => s
  | .fireTimers now => match s.fireTimers now with
    | .ok (_, s') => s'
    | .error _ => s
  | .abort id reason => match s.abort id reason with
    | .ok (_, s') => s'
    | .error _ => s
  | .takeRequests => s.takeRequests.2
  | .takeNotices => s.takeNotices.2
  | .close reason => s.close reason
  | .elapse now => s.tick now

/-- The session after a list of operations. -/
def applyAll (s : Session) (os : List Operation) : Session := os.foldl apply s

/-- The cascade of a result that has come in. -/
def completing (s : Session) (call : CallId) (result : Except ActionError Value) : Cascade :=
  let c := ({ s with calls := (s.calls.complete call).2 } : Session).openCascade
  match (s.calls.complete call).1 with
  | .unknown => c
  | .discard _ => c.notify (.completionDiscarded call)
  | .deliver _ action => c.enqueue (resultEvent call action result)

/-- The cascade of the timers that are due. -/
def firing (s : Session) (now : Instant) : Cascade :=
  let s := s.tick now
  (s.timers.takeDue now).1.foldl (fun c t => c.enqueue (timeoutEvent t.1 t.2))
    ({ s with timers := (s.timers.takeDue now).2 } : Session).openCascade

/-! ## What inputs come to -/

section Inputs

variable {s : Session} {e : SessionError} {flows : List String} {flow : String} {args : Params}
  {c : Cascade}

/-! A session that takes no inputs refuses all of them for the same reason. -/

theorem start_of_closed (closed : s.checkOpen = .error e) (flows : List String) :
    s.start flows = .error e := by
  rw [start, closed]
  rfl

theorem startFlow_of_closed (closed : s.checkOpen = .error e) (flow : String) (args : Params) :
    s.startFlow flow args = .error e := by
  rw [startFlow, closed]
  rfl

theorem submit_of_closed (closed : s.checkOpen = .error e) (event : Event) :
    s.submit event = .error e := by
  rw [submit, closed]
  rfl

theorem completeCall_of_closed (closed : s.checkOpen = .error e) (call : CallId)
    (result : Except ActionError Value) : s.completeCall call result = .error e := by
  rw [completeCall, closed]
  rfl

theorem fireTimers_of_closed (closed : s.checkOpen = .error e) (now : Instant) :
    s.fireTimers now = .error e := by
  rw [fireTimers, closed]
  rfl

theorem abort_of_closed (closed : s.checkOpen = .error e) (id : InstanceId) (reason : String) :
    s.abort id reason = .error e := by
  rw [abort, closed]
  rfl

/-! Any other session runs the cascade that an input begins with, unless a flow is not known. -/

theorem start_of_unknown (isOpen : s.checkOpen = .ok ()) {missing : String}
    (unknown : (flows.find? fun flow => !s.library.contains flow) = some missing) :
    s.start flows = .error (.unknownFlow missing) := by
  rw [start, isOpen]
  simp only [unknown]
  rfl

theorem start_of_launchAll_eq_error (isOpen : s.checkOpen = .ok ())
    (known : (flows.find? fun flow => !s.library.contains flow) = none)
    (refused : s.openCascade.launchAll flows = .error e) : s.start flows = .error e := by
  rw [start, isOpen]
  simp only [known, refused]
  rfl

theorem start_of_launchAll (isOpen : s.checkOpen = .ok ())
    (known : (flows.find? fun flow => !s.library.contains flow) = none)
    (launched : s.openCascade.launchAll flows = .ok c) :
    s.start flows = .ok (c.notify (.sessionOpened flows)).run := by
  rw [start, isOpen]
  simp only [known, launched]
  rfl

theorem startFlow_of_unknown (isOpen : s.checkOpen = .ok ())
    (refused : s.openCascade.launch flow args = none) :
    s.startFlow flow args = .error (.unknownFlow flow) := by
  rw [startFlow, isOpen]
  simp only [refused]
  rfl

theorem startFlow_of_launch (isOpen : s.checkOpen = .ok ()) {id : InstanceId}
    (launched : s.openCascade.launch flow args = some (id, c)) :
    s.startFlow flow args = .ok (id, c.run) := by
  rw [startFlow, isOpen]
  simp only [launched]
  rfl

theorem submit_eq (isOpen : s.checkOpen = .ok ()) (event : Event) :
    s.submit event = .ok (s.openCascade.enqueue event).run := by
  rw [submit, isOpen]
  rfl

theorem completeCall_eq (isOpen : s.checkOpen = .ok ()) (call : CallId)
    (result : Except ActionError Value) :
    s.completeCall call result = .ok (s.completing call result).run := by
  cases hc : (s.calls.complete call).1 <;>
    simp [completeCall, isOpen, bind, Except.bind, pure, Except.pure, completing, hc]

theorem fireTimers_eq (isOpen : s.checkOpen = .ok ()) (now : Instant) :
    s.fireTimers now = .ok (s.firing now).run := by
  simp [fireTimers, isOpen, bind, Except.bind, pure, Except.pure, firing]

theorem abort_eq (isOpen : s.checkOpen = .ok ()) (id : InstanceId) (reason : String) :
    s.abort id reason = .ok (s.openCascade.terminate id (.stopped reason) true).run := by
  rw [abort, isOpen]
  rfl

end Inputs

/-! ## Turns -/

/-- Where the turn of an operation begins to deliver events, and the moments until then. There is
none if the operation is refused or is no turn. -/
def turn? (s : Session) (o : Operation) : Option (List Moment × Cascade) :=
  match s.checkOpen with
  | .error _ => none
  | .ok () =>
    match o with
    | .start flows =>
      match flows.find? fun name => !s.library.contains name with
      | some _ => none
      | none =>
        match s.openCascade.launchAll flows with
        | .error _ => none
        | .ok c => some (Cascade.launchAllHistory flows s.openCascade,
            c.notify (.sessionOpened flows))
    | .startFlow flow args =>
      match s.openCascade.launch flow args with
      | none => none
      | some (_, c) => some (s.openCascade.launchHistory flow args, c)
    | .submit e => some ([], s.openCascade.enqueue e)
    | .completeCall call result => some ([], s.completing call result)
    | .fireTimers now => some ([], s.firing now)
    | .abort id reason => some ([], s.openCascade.terminate id (.stopped reason) true)
    | .takeRequests => none
    | .takeNotices => none
    | .close _ => none
    | .elapse _ => none

/-- The turns that there are, by the kinds of operations. -/
inductive Begins (s : Session) : Operation → List Moment → Cascade → Prop
  | start {flows c} (launched : s.openCascade.launchAll flows = .ok c) :
    Begins s (.start flows) (Cascade.launchAllHistory flows s.openCascade)
      (c.notify (.sessionOpened flows))
  | startFlow {flow args id c} (launched : s.openCascade.launch flow args = some (id, c)) :
    Begins s (.startFlow flow args) (s.openCascade.launchHistory flow args) c
  | submit (e) : Begins s (.submit e) [] (s.openCascade.enqueue e)
  | completeCall (call result) : Begins s (.completeCall call result) [] (s.completing call result)
  | fireTimers (now) : Begins s (.fireTimers now) [] (s.firing now)
  | abort (id reason) :
    Begins s (.abort id reason) [] (s.openCascade.terminate id (.stopped reason) true)

theorem begins_of_turn? {s : Session} {o : Operation} {ms : List Moment} {c : Cascade}
    (h : s.turn? o = some (ms, c)) : s.Begins o ms c := by
  unfold turn? at h
  split at h
  · cases h
  -- What is refused has no turn, and what is taken out of a session does not have one either.
  · cases o with
    | start flows =>
      dsimp only at h
      split at h
      · cases h
      · split at h
        · cases h
        · next launched =>
          obtain ⟨rfl, rfl⟩ := Prod.mk.inj (Option.some.inj h)
          exact .start launched
    | startFlow flow args =>
      dsimp only at h
      split at h
      · cases h
      · next launched =>
        obtain ⟨rfl, rfl⟩ := Prod.mk.inj (Option.some.inj h)
        exact .startFlow launched
    | submit e =>
      obtain ⟨rfl, rfl⟩ := Prod.mk.inj (Option.some.inj h)
      exact .submit e
    | completeCall call result =>
      obtain ⟨rfl, rfl⟩ := Prod.mk.inj (Option.some.inj h)
      exact .completeCall call result
    | fireTimers now =>
      obtain ⟨rfl, rfl⟩ := Prod.mk.inj (Option.some.inj h)
      exact .fireTimers now
    | abort id reason =>
      obtain ⟨rfl, rfl⟩ := Prod.mk.inj (Option.some.inj h)
      exact .abort id reason
    | takeRequests => cases h
    | takeNotices => cases h
    | close reason => cases h
    | elapse now => cases h

/-- A session that takes inputs has no fault and has not been closed. -/
theorem checkOpen_eq_ok_iff {s : Session} :
    s.checkOpen = .ok () ↔ s.fault = none ∧ s.isClosed = false := by
  unfold checkOpen
  cases s.fault with
  | none => cases s.isClosed <;> simp
  | some fault => simp

/-- Only a session that takes inputs has turns. -/
theorem checkOpen_of_turn? {s : Session} {o : Operation} {t : List Moment × Cascade}
    (h : s.turn? o = some t) : s.checkOpen = .ok () := by
  unfold turn? at h
  split at h
  · cases h
  · assumption

theorem fault_of_turn? {s : Session} {o : Operation} {t : List Moment × Cascade}
    (h : s.turn? o = some t) : s.fault = none :=
  (checkOpen_eq_ok_iff.1 (checkOpen_of_turn? h)).1

/-- What an operation that is no turn leaves. -/
def idle (s : Session) : Operation → Session
  | .takeRequests => s.takeRequests.2
  | .takeNotices => s.takeNotices.2
  | .close reason => s.close reason
  | .elapse now => s.tick now
  | _ => s

/-- The turn of an operation, and the session after it. There is none if the operation is refused or
is no turn. -/
def perform? (s : Session) : Operation → Option (Turn × Session)
  | .start flows => (s.start flows).toOption
  | .startFlow flow args => (s.startFlow flow args).toOption.map Prod.snd
  | .submit e => (s.submit e).toOption
  | .completeCall call result => (s.completeCall call result).toOption
  | .fireTimers now => (s.fireTimers now).toOption
  | .abort id reason => (s.abort id reason).toOption
  | .takeRequests => none
  | .takeNotices => none
  | .close _ => none
  | .elapse _ => none

/-- A turn is what is run from where it begins to deliver events. -/
theorem perform?_eq (s : Session) (o : Operation) :
    s.perform? o = (s.turn? o).map fun t => t.2.run := by
  unfold perform? turn?
  cases isOpen : s.checkOpen with
  | error e =>
    cases o <;> simp [start_of_closed isOpen, startFlow_of_closed isOpen, submit_of_closed isOpen,
      completeCall_of_closed isOpen, fireTimers_of_closed isOpen, abort_of_closed isOpen,
      Except.toOption]
  | ok _ =>
    cases o with
    | start flows =>
      cases known : flows.find? fun name => !s.library.contains name with
      | some name => simp [start_of_unknown isOpen known, known, Except.toOption]
      | none =>
        cases launched : s.openCascade.launchAll flows with
        | error e =>
          simp [start_of_launchAll_eq_error isOpen known launched, known, launched, Except.toOption]
        | ok c => simp [start_of_launchAll isOpen known launched, known, launched, Except.toOption]
    | startFlow flow args =>
      cases launched : s.openCascade.launch flow args with
      | none => simp [startFlow_of_unknown isOpen launched, launched, Except.toOption]
      | some p => simp [startFlow_of_launch isOpen launched, launched, Except.toOption]
    | submit e => simp [submit_eq isOpen, Except.toOption]
    | completeCall call result => simp [completeCall_eq isOpen, Except.toOption]
    | fireTimers now => simp [fireTimers_eq isOpen, Except.toOption]
    | abort id reason => simp [abort_eq isOpen, Except.toOption]
    | takeRequests | takeNotices | close | elapse => rfl

/-- The session after an operation is the one after its turn. -/
theorem apply_eq_perform? (s : Session) (o : Operation) :
    s.apply o = match s.perform? o with
      | some (_, s') => s'
      | none => s.idle o := by
  cases o with
  | start flows => cases h : s.start flows <;> simp [apply, perform?, idle, h, Except.toOption]
  | startFlow flow args =>
    cases h : s.startFlow flow args <;> simp [apply, perform?, idle, h, Except.toOption]
  | submit e => cases h : s.submit e <;> simp [apply, perform?, idle, h, Except.toOption]
  | completeCall call result =>
    cases h : s.completeCall call result <;> simp [apply, perform?, idle, h, Except.toOption]
  | fireTimers now =>
    cases h : s.fireTimers now <;> simp [apply, perform?, idle, h, Except.toOption]
  | abort id reason =>
    cases h : s.abort id reason <;> simp [apply, perform?, idle, h, Except.toOption]
  | takeRequests => rfl
  | takeNotices => rfl
  | close reason => rfl
  | elapse now => rfl

/-- An operation is a turn, or has no moments. -/
theorem apply_eq (s : Session) (o : Operation) :
    s.apply o = match s.turn? o with
      | some (_, c) => c.run.2
      | none => s.idle o := by
  rw [apply_eq_perform?, perform?_eq]
  cases s.turn? o <;> rfl

theorem fault_idle (s : Session) (o : Operation) : (s.idle o).fault = s.fault := by
  cases o with
  | close reason =>
    show (s.close reason).fault = s.fault
    unfold close
    split <;> rfl
  | _ => rfl

/-- A fault stays. -/
theorem fault_of_apply {s : Session} {o : Operation} (h : (s.apply o).fault = none) :
    s.fault = none := by
  rw [apply_eq] at h
  cases ht : s.turn? o with
  | none =>
    rw [ht] at h
    rwa [fault_idle] at h
  | some t => exact fault_of_turn? ht

theorem fault_of_applyAll {s : Session} {os : List Operation}
    (h : (s.applyAll os).fault = none) : s.fault = none := by
  induction os generalizing s with
  | nil => exact h
  | cons o rest ih => exact fault_of_apply (ih h)

/-- The moments of an operation. -/
def history (s : Session) (o : Operation) : List Moment :=
  match s.turn? o with
  | some (ms, c) => ms ++ c.runHistory
  | none => []

/-- The moments of a list of operations. -/
def historyOf (s : Session) (os : List Operation) : List Moment := foldHistory apply history s os

end Session

/-! ## What may happen between two moments -/

namespace Cascade

variable {c c' c'' : Cascade} {id : InstanceId} {w : Wait}

/-- Nothing happens to the instances. Calls and timers may be lost, and time may pass. -/
structure Aside (c c' : Cascade) : Prop where
  instances : c'.instances = c.instances
  archive : c'.archive = c.archive
  created : c'.created = c.created
  limits : c'.limits = c.limits
  library : c'.library = c.library
  calls : c.calls.Loses c'.calls
  timers : c.timers.Loses c'.timers
  clock : c.clock ≤ c'.clock

theorem Aside.refl (c : Cascade) : c.Aside c :=
  ⟨rfl, rfl, rfl, rfl, rfl, .refl _, .refl _, Nat.le_refl _⟩

theorem Aside.trans (h : c.Aside c') (h' : c'.Aside c'') : c.Aside c'' :=
  ⟨h'.instances.trans h.instances, h'.archive.trans h.archive, h'.created.trans h.created,
    h'.limits.trans h.limits, h'.library.trans h.library, h.calls.trans h'.calls,
    h.timers.trans h'.timers, Nat.le_trans h.clock h'.clock⟩

/-- What may happen between two moments of a run. -/
inductive Passes (c c' : Cascade) : Prop
  /-- A quiet change of a turn. -/
  | change (h : c.Change c')
  /-- Something that does not concern the instances. -/
  | aside (h : c.Aside c')
  /-- Everything is dropped. -/
  | close (instances : c'.instances = ∅) (archive : c'.archive = ∅)
      (created : c'.created = c.created) (limits : c'.limits = c.limits)
      (library : c'.library = c.library) (calls : c.calls.Loses c'.calls)
      (timers : c.timers.Loses c'.timers)
      (clock : c'.clock = c.clock) (noCalls : c'.calls.pending = ∅) (noTimers : c'.timers.armed = ∅)

theorem Passes.later (h : c.Passes c') : c.toSession.Later c'.toSession := by
  cases h with
  | change h => exact h.later
  | aside h =>
    exact .of_survivors (.of_eq h.instances) (Nat.le_of_eq h.created.symm) h.calls.later
      h.timers.later
  | close instances _ created _ _ calls timers _ _ _ =>
    refine .of_survivors (fun id i hi => ?_) (Nat.le_of_eq created.symm) calls.later timers.later
    rw [instances] at hi
    cases hi

theorem Passes.limits (h : c.Passes c') : c'.limits = c.limits := by
  cases h with
  | change h => exact h.limits
  | aside h => exact h.limits
  | close _ _ _ limits => exact limits

theorem Passes.library (h : c.Passes c') : c'.library = c.library := by
  cases h with
  | change h => exact h.library
  | aside h => exact h.library
  | close _ _ _ _ library => exact library

theorem Passes.sound (h : c.Passes c') (hs : c.toSession.Sound) : c'.toSession.Sound := by
  have later := h.later
  cases h with
  | change h => exact h.sound hs
  | aside h =>
    exact hs.of_survivors later (.of_eq h.instances) h.archive h.limits (hs.calls_of_loses h.calls)
  | close instances archive _ _ _ calls _ _ _ _ =>
    -- A session that has been closed has nothing that could be out of order.
    refine ⟨fun id i hi => ?_, fun id i hi => ?_, ?_, hs.calls_of_loses calls⟩
    · rw [instances] at hi
      cases hi
    · rw [archive] at hi
      cases hi
    · rw [archive]
      exact Nat.zero_le _

theorem Passes.linked (h : c.Passes c') (hs : c.toSession.Sound) (hl : c.toSession.Linked) :
    c'.toSession.Linked := by
  cases h with
  | change h => exact h.linked hs hl
  | aside h =>
    intro id i p hi hp hd
    rw [h.instances] at hi ⊢
    exact hl id i p hi hp hd
  | close instances =>
    intro id i p hi
    rw [instances] at hi
    cases hi

theorem Passes.waitOf?_of (h : c.Passes c') (hw : c'.toSession.waitOf? id = some w) :
    c.toSession.waitOf? id = some w := by
  cases h with
  | change h => exact h.waitOf?_of hw
  | aside h => rwa [Session.waitOf?, h.instances] at hw
  | close instances =>
    rw [Session.waitOf?, instances] at hw
    cases hw

end Cascade

namespace Path

variable {c c' : Cascade} {ms : List Moment}

theorem passes_sound (h : Path Cascade.Passes c ms c') (hs : c.toSession.Sound) :
    c'.toSession.Sound :=
  h.sound_of hs fun _ _ h => h.sound

theorem passes_linked (h : Path Cascade.Passes c ms c') (hs : c.toSession.Sound)
    (hl : c.toSession.Linked) : c'.toSession.Linked :=
  h.induct_of_sound hs hl (fun _ _ h => h.sound) (fun _ _ h => h.linked)
    (fun _ _ _ _ h _ => h.linked) fun _ _ _ _ h _ => h.linked

theorem passes_limits (h : Path Cascade.Passes c ms c') : c'.limits = c.limits :=
  h.induct (P := fun d => d.limits = c.limits) rfl (fun _ _ h l => h.limits.trans l)
    (fun _ _ _ _ h l => h.limits.trans l) fun _ _ _ _ h l => h.limits.trans l

theorem passes_later (h : Path Cascade.Passes c ms c') : c.toSession.Later c'.toSession :=
  h.induct (P := fun d => c.toSession.Later d.toSession) (.refl _) (fun _ _ h l => l.trans h.later)
    (fun _ _ _ _ h l => l.trans h.later) fun _ _ _ _ h l => l.trans h.later

end Path

namespace Cascade

variable {c c' : Cascade} {id : InstanceId} {w : Wait}

/-! ## Turns are paths -/

theorem aside_pop (c : Cascade) (rest : List Event) : c.Aside { c with queue := rest } :=
  ⟨rfl, rfl, rfl, rfl, rfl, .refl _, .refl _, Nat.le_refl _⟩

theorem aside_enqueue (c : Cascade) (e : Event) : c.Aside (c.enqueue e) :=
  ⟨rfl, rfl, rfl, rfl, rfl, .refl _, .refl _, Nat.le_refl _⟩

theorem aside_poison (c : Cascade) : c.Aside c.poison :=
  ⟨rfl, rfl, rfl, rfl, rfl, .refl _, .refl _, Nat.le_refl _⟩

theorem aside_notify (c : Cascade) (notice : Notice) : c.Aside (c.notify notice) :=
  ⟨rfl, rfl, rfl, rfl, rfl, .refl _, .refl _, Nat.le_refl _⟩

/-- What has been gathered for the reply of a turn is taken out at its end. -/
theorem aside_reopen (c : Cascade) : c.Aside c.toSession.openCascade :=
  ⟨rfl, rfl, rfl, rfl, rfl, .refl _, .refl _, Nat.le_refl _⟩

theorem aside_settleOne (winner : Option (InstanceId × Nat)) (state : Cascade × List Event)
    (p : Produced) : state.1.Aside (settleOne winner state p).1 := by
  unfold settleOne
  dsimp only
  split
  · exact ⟨rfl, rfl, rfl, rfl, rfl, .refl _, .refl _, Nat.le_refl _⟩
  · split <;> exact ⟨rfl, rfl, rfl, rfl, rfl, .refl _, .refl _, Nat.le_refl _⟩

theorem aside_foldl_settleOne (winner : Option (InstanceId × Nat)) (ps : List Produced)
    (state : Cascade × List Event) : state.1.Aside (ps.foldl (settleOne winner) state).1 := by
  induction ps generalizing state with
  | nil => exact .refl _
  | cons p rest ih => exact (aside_settleOne winner _ p).trans (ih _)

theorem aside_settle (c : Cascade) : c.Aside c.settle := by
  have settled := aside_foldl_settleOne
    (heard? ((c.produced.toList.filter fun p =>
      c.library.vocabulary.isOutput p.event.name).filterMap Produced.speaker))
    c.produced.toList ({ c with produced := #[] }, [])
  exact ⟨settled.instances, settled.archive, settled.created, settled.limits, settled.library,
    settled.calls, settled.timers, settled.clock⟩

theorem path_drain : ∀ (budget : Nat) {c : Cascade}, c.toSession.Sound →
    Path Passes c (drainHistory budget c) (drain budget c)
  | budget, c, hs => by
    unfold drainHistory drain
    cases hq : c.queue with
    | nil => exact .nil c
    | cons e rest =>
      cases budget with
      | zero =>
        -- Without budget the turn is broken off, with the events that are left.
        exact .single (.aside (aside_poison c))
      | succ budget =>
        let c₁ : Cascade := { c with queue := rest }
        have first : Path Passes c₁ (c₁.deliverHistory e) (c₁.deliver e) :=
          (path_deliver (c := c₁) hs e).mono fun _ _ => .change
        have settled := aside_settle (c₁.deliver e)
        have hs₂ := (Passes.aside settled).sound ((path_deliver (c := c₁) hs e).sound hs)
        -- The event leaves the queue, it is delivered, and what has been produced is queued.
        exact .change (.aside (aside_pop c rest))
          (first.trans (.change (.aside settled) (path_drain budget hs₂)))

/-- The session that the rest of a turn ends with. -/
theorem run_session (c : Cascade) :
    c.run.2 = (drain c.limits.cascadeSteps c.settle).toSession := rfl

theorem path_run (hs : c.toSession.Sound) :
    Path Passes c c.runHistory c.run.2.openCascade := by
  have settled := aside_settle c
  have drained := path_drain c.limits.cascadeSteps ((Passes.aside settled).sound hs)
  have ended : (drain c.limits.cascadeSteps c.settle).Aside c.run.2.openCascade := aside_reopen _
  have whole := Path.change (.aside settled) (drained.trans (.single (.aside ended)))
  rwa [List.append_nil] at whole

theorem aside_foldl_enqueue {α : Type} (event : α → Event) (as : List α) (c : Cascade) :
    c.Aside (as.foldl (fun c a => c.enqueue (event a)) c) := by
  induction as generalizing c with
  | nil => exact .refl c
  | cons a rest ih => exact (aside_enqueue c (event a)).trans (ih _)

end Cascade

namespace Session

variable {s : Session}

/-- A result that comes in is taken from the calls. -/
theorem aside_completing (s : Session) (call : CallId) (result : Except ActionError Value) :
    s.openCascade.Aside (s.completing call result) := by
  have taken : s.openCascade.Aside
      ({ s with calls := (s.calls.complete call).2 } : Session).openCascade :=
    ⟨rfl, rfl, rfl, rfl, rfl, s.calls.loses_complete call, .refl _, Nat.le_refl _⟩
  unfold completing
  dsimp only
  split
  · exact taken
  · exact taken.trans ⟨rfl, rfl, rfl, rfl, rfl, .refl _, .refl _, Nat.le_refl _⟩
  · exact taken.trans ⟨rfl, rfl, rfl, rfl, rfl, .refl _, .refl _, Nat.le_refl _⟩

/-- Timers that are due are taken out. -/
theorem aside_firing (s : Session) (now : Instant) : s.openCascade.Aside (s.firing now) := by
  have taken : s.openCascade.Aside ({ s.tick now with
      timers := ((s.tick now).timers.takeDue now).2 } : Session).openCascade :=
    ⟨rfl, rfl, rfl, rfl, rfl, .refl _, (s.tick now).timers.loses_takeDue now,
      s.clock.le_max_left now⟩
  have fired := Cascade.aside_foldl_enqueue (fun t => timeoutEvent t.1 t.2)
    ((s.tick now).timers.takeDue now).1
    ({ s.tick now with timers := ((s.tick now).timers.takeDue now).2 } : Session).openCascade
  exact taken.trans fired

/-- The way to where a turn begins to deliver events. -/
theorem path_turn? (hs : s.Sound) {o : Operation} {ms : List Moment} {c : Cascade}
    (h : s.turn? o = some (ms, c)) : Path Cascade.Passes s.openCascade ms c := by
  cases begins_of_turn? h with
  | @start flows c launched =>
    have path : Path Cascade.Passes _ _ c :=
      (Cascade.path_launchAll hs launched).mono fun _ _ => .change
    have whole := path.trans (.single (.aside (c.aside_notify (.sessionOpened flows))))
    rwa [List.append_nil] at whole
  | startFlow launched => exact (Cascade.path_launch hs launched).mono fun _ _ => .change
  | submit e => exact .single (.aside (s.openCascade.aside_enqueue e))
  | completeCall call result => exact .single (.aside (s.aside_completing call result))
  | fireTimers now => exact .single (.aside (s.aside_firing now))
  | abort id reason =>
    exact (Path.of_changes (Cascade.changes_terminate hs id _ true)).mono fun _ _ => .change

theorem aside_takeRequests (s : Session) :
    s.openCascade.Aside (s.idle .takeRequests).openCascade :=
  ⟨rfl, rfl, rfl, rfl, rfl, s.calls.loses_takeRequests, .refl _, Nat.le_refl _⟩

theorem aside_takeNotices (s : Session) :
    s.openCascade.Aside (s.idle .takeNotices).openCascade :=
  ⟨rfl, rfl, rfl, rfl, rfl, .refl _, .refl _, Nat.le_refl _⟩

theorem aside_elapse (s : Session) (now : Instant) :
    s.openCascade.Aside (s.idle (.elapse now)).openCascade :=
  ⟨rfl, rfl, rfl, rfl, rfl, .refl _, .refl _, s.clock.le_max_left now⟩

/-- By an operation that is no turn something is dropped at most, or time passes. -/
theorem passes_idle (s : Session) (o : Operation) :
    s.openCascade.Passes (s.idle o).openCascade := by
  cases o with
  | takeRequests => exact .aside s.aside_takeRequests
  | takeNotices => exact .aside s.aside_takeNotices
  | elapse now => exact .aside (s.aside_elapse now)
  | close reason =>
    show s.openCascade.Passes (s.close reason).openCascade
    unfold close
    split
    · exact .aside (.refl _)
    · exact .close rfl rfl rfl rfl rfl s.calls.loses_clear s.timers.loses_clear rfl rfl rfl
  | _ => exact .aside (.refl _)

theorem path_history (hs : s.Sound) (o : Operation) :
    Path Cascade.Passes s.openCascade (s.history o) (s.apply o).openCascade := by
  rw [apply_eq, history]
  cases h : s.turn? o with
  | none => exact .single (s.passes_idle o)
  | some t =>
    obtain ⟨ms, c⟩ := t
    have begun := path_turn? hs h
    exact begun.trans (Cascade.path_run (begun.passes_sound hs))

theorem sound_apply (hs : s.Sound) (o : Operation) : (s.apply o).Sound :=
  (path_history hs o).passes_sound hs

/-- The history of a run is a path. -/
theorem path_historyOf (hs : s.Sound) (os : List Operation) :
    Path Cascade.Passes s.openCascade (s.historyOf os) (s.applyAll os).openCascade := by
  induction os generalizing s with
  | nil => exact .nil _
  | cons o rest ih => exact (path_history hs o).trans (ih (sound_apply hs o))

/-! ## Runs from the beginning -/

/-- A new session is sound. -/
theorem sound_new (name : String) (library : FlowLibrary) (limits : Limits) (context : Params) :
    (new name library limits context).Sound :=
  ⟨(fun _ _ h => by cases h), (fun _ _ h => by cases h), Nat.zero_le _, fun _ _ h => by cases h⟩

theorem linked_new (name : String) (library : FlowLibrary) (limits : Limits) (context : Params) :
    (new name library limits context).Linked :=
  fun _ _ _ h _ _ => by cases h

end Session

end Dialogue
