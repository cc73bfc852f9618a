import Dialogue.Proofs.Session.Limits

/-!
# Operations that are refused

An operation is carried out in place: a step that is refused does not take back what was done
before it. An operation that is refused nevertheless leaves the session as it was, with all that it
counts, remembers and has to tell, because all that can be refused is refused before the first
change. This matters most where flows are started one after the other: the first ones would be
running when the last one turns out to be unknown.

## Main definitions

* `InPlace` — steps that change a cascade in place
* `Session.attempt` — an operation that is carried out in place
* `Session.Refuses` — which operations are refused, and why

## Main results

* `Session.attempt_eq` — an operation that is carried out in place does what the operation does
* `Session.refused_unchanged` — what is refused changes nothing
-/

namespace Dialogue

/-- Steps that change a cascade in place. If one of them is refused, what has been done before it
stands. -/
abbrev InPlace := ExceptT SessionError (StateM Cascade)

namespace InPlace

/-- What comes of steps, and what they leave. -/
def on {α : Type} (x : InPlace α) (c : Cascade) : Except SessionError α × Cascade :=
  StateT.run (ExceptT.run x) c

section On

variable {α β : Type} (c : Cascade)

@[simp] theorem on_pure (a : α) : on (pure a) c = (.ok a, c) := rfl

@[simp] theorem on_throw (e : SessionError) : on (throw e : InPlace α) c = (.error e, c) := rfl

@[simp] theorem on_get : on get c = (.ok c, c) := rfl

@[simp] theorem on_modify (f : Cascade → Cascade) : on (modify f) c = (.ok (), f c) := rfl

/-- What follows a step that is refused is not done, and nothing is taken back. -/
@[simp] theorem on_bind (x : InPlace α) (f : α → InPlace β) : on (x >>= f) c =
    match on x c with
    | (.ok a, c') => on (f a) c'
    | (.error e, c') => (.error e, c') := by
  unfold on
  simp only [ExceptT.run, bind, ExceptT.bind, ExceptT.mk, StateT.run, StateT.bind]
  rcases x c with ⟨_ | _, _⟩ <;> rfl

end On

/-- Creates an instance of a flow, change by change. -/
def spawn (flow : String) (args : Params) (parent : Option InstanceId) (isDetached : Bool) :
    InPlace InstanceId := do
  match (← get).library.get? flow with
  | none => throw (.unknownFlow flow)
  | some compiled =>
    modify fun c => { c with created := c.created + 1 }
    let id : InstanceId := ⟨(← get).created⟩
    let depth := match parent.bind (← get).instances.get? with
      | some p => p.depth + 1
      | none => 0
    if let some p := parent then
      if !isDetached then
        modify fun c => c.change p fun i => { i with children := i.children ++ [id] }
    modify fun c => c.notify (.flowStarted id flow depth)
    modify fun c => { c with
      instances := c.instances.insert id (Instance.begin id compiled args parent depth isDetached) }
    modify fun c => c.produce none (Event.of EventName.flowStarted
      [("flow", .string flow), ("instance_id", .ofNat id.number)])
    return id

/-- Creates an instance that nothing stands above, and runs it. -/
def launch (flow : String) (args : Params) : InPlace InstanceId := do
  let id ← spawn flow args none false
  modify fun c => c.activate id
  return id

/-- Launches flows one after the other. -/
def launchAll : List String → InPlace Unit
  | [] => return ()
  | flow :: rest => do
    let _ ← launch flow ∅
    launchAll rest

/-- Goes on only if the session takes inputs. -/
def requireOpen : InPlace Unit := do
  match (← get).toSession.checkOpen with
  | .error e => throw e
  | .ok () => return ()

/-- Goes on only if all flows are known. -/
def requireKnown (flows : List String) : InPlace Unit := do
  let library := (← get).library
  match flows.find? fun flow => !library.contains flow with
  | some missing => throw (.unknownFlow missing)
  | none => return ()

/-- The rest of a turn. -/
def settleAll : InPlace Turn := do
  modify Cascade.settle
  modify fun c => c.drain c.limits.cascadeSteps
  return (← get).finish.1

/-- Queues the events of timers, one after the other. -/
def fire : List (TimerId × InstanceId) → InPlace Unit
  | [] => return ()
  | (timer, owner) :: rest => do
    modify fun c => c.enqueue (Session.timeoutEvent timer owner)
    fire rest

/-- The steps of an operation, in order. -/
def perform : Operation → InPlace Response
  | .start flows => do
    requireOpen
    requireKnown flows
    launchAll flows
    modify fun c => c.notify (.sessionOpened flows)
    return .turn (← settleAll)
  | .startFlow flow args => do
    requireOpen
    let id ← launch flow args
    return .started id (← settleAll)
  | .submit e => do
    requireOpen
    modify fun c => c.enqueue e
    return .turn (← settleAll)
  | .completeCall call result => do
    requireOpen
    let (completion, calls) := (← get).calls.complete call
    modify fun c => { c with calls }
    match completion with
    | .unknown => pure ()
    | .discard _ => modify fun c => c.notify (.completionDiscarded call)
    | .deliver _ action => modify fun c => c.enqueue (Session.resultEvent call action result)
    return .turn (← settleAll)
  | .fireTimers now => do
    requireOpen
    modify fun c => { c with clock := c.clock.max now }
    let (due, timers) := (← get).timers.takeDue now
    modify fun c => { c with timers }
    fire due
    return .turn (← settleAll)
  | .abort id reason => do
    requireOpen
    modify fun c => c.terminate id (.stopped reason) true
    return .turn (← settleAll)
  | .takeRequests => do
    let (requests, calls) := (← get).calls.takeRequests
    modify fun c => { c with calls }
    return .requests requests
  | .takeNotices => do
    let notices := (← get).notices
    modify fun c => { c with notices := #[] }
    return .notices notices.toList
  | .close reason => do
    modify fun c => { c with toSession := c.toSession.close reason }
    return .closed
  | .elapse now => do
    modify fun c => { c with clock := c.clock.max now }
    return .elapsed

end InPlace

/-- Whether an operation takes something in. -/
def Operation.isInput : Operation → Bool
  | takeRequests | takeNotices | close _ | elapse _ => false
  | _ => true

namespace Session

/-- What comes of an operation that is carried out in place, and what it leaves, whether it is
refused or not. -/
def attempt (s : Session) (o : Operation) : Except SessionError Response × Session :=
  let (r, c) := (InPlace.perform o).on s.openCascade
  (r, c.toSession)

end Session

namespace InPlace

variable (c : Cascade)

theorem on_spawn (flow : String) (args : Params) (parent : Option InstanceId)
    (isDetached : Bool) : (spawn flow args parent isDetached).on c =
      match c.spawn flow args parent isDetached with
      | some (id, c') => (.ok id, c')
      | none => (.error (.unknownFlow flow), c) := by
  unfold spawn Cascade.spawn
  cases hl : c.library.get? flow with
  | none => simp [hl]
  | some compiled =>
    cases parent with
    | none => simp [hl]; rfl
    | some p => cases isDetached <;> simp [hl] <;> rfl

theorem on_launch (flow : String) (args : Params) : (launch flow args).on c =
    match c.launch flow args with
    | some (id, c') => (.ok id, c')
    | none => (.error (.unknownFlow flow), c) := by
  rw [launch, on_bind, on_spawn, Cascade.launch]
  cases c.spawn flow args none false <;> rfl

/-- If all flows can be launched, launching them one after the other launches them all. -/
theorem on_launchAll {flows : List String} {c c' : Cascade} (h : c.launchAll flows = .ok c') :
    (launchAll flows).on c = (.ok (), c') := by
  induction flows generalizing c with
  | nil =>
    obtain rfl := Except.ok.inj h
    rfl
  | cons flow rest ih =>
    rw [Cascade.launchAll] at h
    rw [launchAll, on_bind, on_launch]
    cases launched : c.launch flow ∅ with
    | none => simp [launched] at h
    | some p =>
      rw [launched] at h
      exact ih h

theorem on_requireOpen : requireOpen.on c = (c.toSession.checkOpen, c) := by
  rw [requireOpen, on_bind, on_get]
  cases h : c.toSession.checkOpen <;> simp [h]

theorem on_requireKnown (flows : List String) : (requireKnown flows).on c =
    match flows.find? fun flow => !c.library.contains flow with
    | some missing => (.error (.unknownFlow missing), c)
    | none => (.ok (), c) := by
  rw [requireKnown, on_bind, on_get]
  cases h : flows.find? fun flow => !c.library.contains flow <;> simp [h]

theorem on_settleAll : settleAll.on c =
    (.ok c.run.1, Cascade.drain c.limits.cascadeSteps c.settle) := by
  have settled : c.settle.limits = c.limits := (Cascade.aside_settle c).limits
  simp only [settleAll, on_bind, on_modify, on_get, on_pure, settled, Cascade.run]

theorem on_fire (due : List (TimerId × InstanceId)) : (fire due).on c =
    (.ok (), due.foldl (fun c t => c.enqueue (Session.timeoutEvent t.1 t.2)) c) := by
  induction due generalizing c with
  | nil => rfl
  | cons t rest ih => exact ih _

end InPlace

namespace Session

open InPlace

variable {s : Session} {e : SessionError}

/-- What an attempt comes to if the operation responds as it does. -/
def outcome (s : Session) : Except SessionError (Response × Session) →
    Except SessionError Response × Session
  | .ok (r, s') => (.ok r, s')
  | .error e => (.error e, s)

theorem on_requireOpen_openCascade {x : Except SessionError Unit} (h : s.checkOpen = x) :
    requireOpen.on s.openCascade = (x, s.openCascade) :=
  h ▸ on_requireOpen s.openCascade

theorem attempt_start (hs : s.Sound) (isOpen : s.checkOpen = .ok ()) (flows : List String) :
    s.attempt (.start flows) = s.outcome (s.respond (.start flows)) := by
  have checks := on_requireOpen_openCascade isOpen
  have known : (requireKnown flows).on s.openCascade =
      match flows.find? fun flow => !s.library.contains flow with
      | some missing => (.error (.unknownFlow missing), s.openCascade)
      | none => (.ok (), s.openCascade) := on_requireKnown s.openCascade flows
  rw [attempt, respond]
  cases found : flows.find? fun flow => !s.library.contains flow with
  | some missing =>
    rw [found] at known
    rw [start_of_unknown isOpen found]
    simp only [perform, on_bind, checks, known]
    rfl
  | none =>
    obtain ⟨c, launched, started⟩ := exists_start hs isOpen found
    rw [found] at known
    rw [started]
    simp only [perform, on_bind, checks, known, on_launchAll launched, on_modify, on_settleAll,
      on_pure]
    rfl

theorem attempt_startFlow (isOpen : s.checkOpen = .ok ()) (flow : String) (args : Params) :
    s.attempt (.startFlow flow args) = s.outcome (s.respond (.startFlow flow args)) := by
  have checks := on_requireOpen_openCascade isOpen
  have launches := on_launch s.openCascade flow args
  rw [attempt, respond]
  cases launched : s.openCascade.launch flow args with
  | none =>
    rw [startFlow_of_unknown isOpen launched]
    simp only [perform, on_bind, checks, launches, launched]
    rfl
  | some p =>
    rw [startFlow_of_launch isOpen launched]
    simp only [perform, on_bind, checks, launches, launched, on_settleAll, on_pure]
    rfl

theorem attempt_completeCall (isOpen : s.checkOpen = .ok ()) (call : CallId)
    (result : Except ActionError Value) :
    s.attempt (.completeCall call result) = s.outcome (s.respond (.completeCall call result)) := by
  have checks := on_requireOpen_openCascade isOpen
  rw [respond, completeCall_eq isOpen, attempt, completing]
  simp only [perform, on_bind, checks, on_get, on_modify]
  have calls : s.openCascade.calls = s.calls := rfl
  rw [calls]
  cases (s.calls.complete call).1 with
  | unknown | discard | deliver => rfl

/-- A session that takes in nothing refuses all inputs, at once. -/
theorem attempt_of_error {o : Operation} (input : o.isInput = true)
    (closed : s.checkOpen = .error e) :
    s.attempt o = (.error e, s) ∧ s.respond o = .error e := by
  have checks := on_requireOpen_openCascade closed
  constructor
  · cases o with
    | takeRequests | takeNotices | close | elapse => cases input
    | _ =>
      simp only [attempt, perform, on_bind, checks]
      rfl
  · rcases respond_of_closed o with refused | rfl | rfl | ⟨_, rfl⟩ | ⟨_, rfl⟩
    · exact refused s e closed
    all_goals cases input

/-- An operation that is carried out in place does what the operation does. -/
theorem attempt_eq (hs : s.Sound) (o : Operation) : s.attempt o = s.outcome (s.respond o) := by
  cases input : o.isInput with
  | false =>
    cases o with
    | takeRequests | takeNotices | close | elapse => rfl
    | _ => cases input
  | true =>
    cases isOpen : s.checkOpen with
    | error e =>
      obtain ⟨attempted, refused⟩ := attempt_of_error input isOpen
      rw [attempted, refused]
      rfl
    | ok _ =>
      -- The checks pass and leave the cascade alone. Then both do the same, from the same cascade.
      have checks := on_requireOpen_openCascade isOpen
      cases o with
      | takeRequests | takeNotices | close | elapse => cases input
      | start flows => exact attempt_start hs isOpen flows
      | startFlow flow args => exact attempt_startFlow isOpen flow args
      | completeCall call result => exact attempt_completeCall isOpen call result
      | submit e =>
        rw [respond, submit_eq isOpen]
        simp only [attempt, perform, on_bind, checks, on_modify, on_settleAll, on_pure]
        rfl
      | fireTimers now =>
        rw [respond, fireTimers_eq isOpen]
        simp only [attempt, perform, on_bind, checks, on_get, on_modify, on_settleAll, on_fire,
          on_pure]
        rfl
      | abort id reason =>
        rw [respond, abort_eq isOpen]
        simp only [attempt, perform, on_bind, checks, on_modify, on_settleAll, on_pure]
        rfl

/-! ## Why operations are refused -/

/-- Which operations a session refuses, and why. -/
inductive Refuses (s : Session) : Operation → SessionError → Prop
  /-- A session that has to be discarded refuses all inputs. -/
  | faulty {o e} (input : o.isInput = true) (fault : s.fault = some e) : Refuses s o e
  /-- So does one that has been closed. -/
  | closed {o} (input : o.isInput = true) (sound : s.fault = none) (closed : s.isClosed = true) :
    Refuses s o (.sessionClosed s.name)
  /-- Flows are not started if one of them is unknown. The first one of these is reported. -/
  | start {before flow after} (isOpen : s.checkOpen = .ok ())
    (known : ∀ f ∈ before, s.library.contains f = true)
    (unknown : s.library.contains flow = false) :
    Refuses s (.start (before ++ flow :: after)) (.unknownFlow flow)
  /-- A single flow is not started if it is unknown. -/
  | startFlow {flow args} (isOpen : s.checkOpen = .ok ())
    (unknown : s.library.contains flow = false) :
    Refuses s (.startFlow flow args) (.unknownFlow flow)

/-- Only an unknown flow cannot be launched. -/
theorem launch_eq_none_iff {c : Cascade} {flow : String} {args : Params} :
    c.launch flow args = none ↔ c.library.contains flow = false := by
  rw [FlowLibrary.contains, Table.contains, Option.isSome_eq_false_iff, Option.isNone_iff_eq_none]
  constructor
  · exact Cascade.get?_of_launch_eq_none
  · intro h
    have unknown : c.library.get? flow = none := h
    rw [Cascade.launch, Cascade.spawn, unknown, Option.map_none]

theorem checkOpen_eq_error_iff : s.checkOpen = .error e ↔
    s.fault = some e ∨ s.fault = none ∧ s.isClosed = true ∧ e = .sessionClosed s.name := by
  unfold checkOpen
  cases s.fault with
  | some fault => simp
  | none => cases s.isClosed <;> simp [eq_comm]

/-- A session that takes in nothing refuses inputs for one reason only. -/
theorem refuses_iff_of_error {o : Operation} {e' : SessionError} (input : o.isInput = true)
    (closed : s.checkOpen = .error e') : s.Refuses o e ↔ e' = e := by
  constructor
  · intro h
    cases h with
    | faulty _ fault =>
      exact Except.error.inj (closed.symm.trans (checkOpen_eq_error_iff.2 (.inl fault)))
    | closed _ sound isClosed =>
      exact Except.error.inj
        (closed.symm.trans (checkOpen_eq_error_iff.2 (.inr ⟨sound, isClosed, rfl⟩)))
    | start isOpen | startFlow isOpen => cases closed.symm.trans isOpen
  · rintro rfl
    obtain fault | ⟨sound, isClosed, rfl⟩ := checkOpen_eq_error_iff.1 closed
    · exact .faulty input fault
    · exact .closed input sound isClosed

/-- An open session refuses nothing because of its state. -/
theorem Refuses.unknown {o : Operation} (h : s.Refuses o e) (isOpen : s.checkOpen = .ok ()) :
    (∃ before flow after, o = .start (before ++ flow :: after) ∧ e = .unknownFlow flow ∧
        (∀ f ∈ before, s.library.contains f = true) ∧ s.library.contains flow = false) ∨
      ∃ flow args, o = .startFlow flow args ∧ e = .unknownFlow flow ∧
        s.library.contains flow = false := by
  cases h with
  | faulty _ fault => cases isOpen.symm.trans (checkOpen_eq_error_iff.2 (.inl fault))
  | closed _ sound isClosed =>
    cases isOpen.symm.trans (checkOpen_eq_error_iff.2 (.inr ⟨sound, isClosed, rfl⟩))
  | start _ known unknown => exact .inl ⟨_, _, _, rfl, rfl, known, unknown⟩
  | startFlow _ unknown => exact .inr ⟨_, _, rfl, rfl, unknown⟩

theorem respond_start_eq_error_iff (hs : s.Sound) (isOpen : s.checkOpen = .ok ())
    {flows : List String} : s.respond (.start flows) = .error e ↔ s.Refuses (.start flows) e := by
  rw [respond]
  constructor
  · intro h
    cases found : flows.find? fun flow => !s.library.contains flow with
    | none =>
      obtain ⟨c, -, started⟩ := exists_start hs isOpen found
      rw [started] at h
      cases h
    | some missing =>
      rw [start_of_unknown isOpen found] at h
      obtain rfl := Except.error.inj h
      obtain ⟨unknown, before, after, rfl, known⟩ := List.find?_eq_some_iff_append.1 found
      exact .start isOpen (by simpa using known) (by simpa using unknown)
  · intro h
    obtain ⟨before, flow, after, ho, rfl, known, unknown⟩ | ⟨_, _, ho, -⟩ := h.unknown isOpen
    · obtain rfl := Operation.start.inj ho
      rw [start_of_unknown isOpen (List.find?_eq_some_iff_append.2
        ⟨by simpa using unknown, before, after, rfl, by simpa using known⟩)]
      rfl
    · cases ho

theorem respond_startFlow_eq_error_iff (isOpen : s.checkOpen = .ok ()) {flow : String}
    {args : Params} :
    s.respond (.startFlow flow args) = .error e ↔ s.Refuses (.startFlow flow args) e := by
  rw [respond]
  constructor
  · intro h
    cases launched : s.openCascade.launch flow args with
    | some p =>
      rw [startFlow_of_launch isOpen launched] at h
      cases h
    | none =>
      rw [startFlow_of_unknown isOpen launched] at h
      obtain rfl := Except.error.inj h
      exact .startFlow isOpen (launch_eq_none_iff.1 launched)
  · intro h
    obtain ⟨_, _, _, ho, -⟩ | ⟨_, _, ho, rfl, unknown⟩ := h.unknown isOpen
    · cases ho
    · obtain ⟨rfl, rfl⟩ := Operation.startFlow.inj ho
      rw [startFlow_of_unknown isOpen (launch_eq_none_iff.2 unknown)]
      rfl

/-- Only inputs are refused. -/
theorem Refuses.isInput {o : Operation} (h : s.Refuses o e) : o.isInput = true := by
  cases h with
  | faulty input => exact input
  | closed input => exact input
  | start => rfl
  | startFlow => rfl

theorem respond_ne_error {o : Operation} (input : o.isInput = false) :
    s.respond o ≠ .error e := by
  intro h
  cases o with
  | takeRequests | takeNotices | close | elapse => cases h
  | _ => cases input

/-- The operations that are refused are those that are said to be. -/
theorem respond_eq_error_iff (hs : s.Sound) (o : Operation) :
    s.respond o = .error e ↔ s.Refuses o e := by
  cases input : o.isInput with
  | false =>
    refine iff_of_false (respond_ne_error input) fun h => ?_
    rw [h.isInput] at input
    cases input
  | true =>
    cases isOpen : s.checkOpen with
    | error e' =>
      rw [(attempt_of_error input isOpen).2, refuses_iff_of_error input isOpen,
        Except.error.injEq]
    | ok _ =>
      cases o with
      | start flows => exact respond_start_eq_error_iff hs isOpen
      | startFlow flow args => exact respond_startFlow_eq_error_iff isOpen
      | takeRequests | takeNotices | close | elapse => cases input
      -- The other operations are not refused by an open session.
      | submit e' =>
        rw [respond, submit_eq isOpen]
        exact iff_of_false (by simp [Except.map]) fun h => by simpa using h.unknown isOpen
      | completeCall call result =>
        rw [respond, completeCall_eq isOpen]
        exact iff_of_false (by simp [Except.map]) fun h => by simpa using h.unknown isOpen
      | fireTimers now =>
        rw [respond, fireTimers_eq isOpen]
        exact iff_of_false (by simp [Except.map]) fun h => by simpa using h.unknown isOpen
      | abort id reason =>
        rw [respond, abort_eq isOpen]
        exact iff_of_false (by simp [Except.map]) fun h => by simpa using h.unknown isOpen

theorem ready_foldl_applyAt (h : s.openCascade.Ready) (os : List (Instant × Operation)) :
    (os.foldl applyAt s).openCascade.Ready := by
  induction os generalizing s with
  | nil => exact h
  | cons o rest ih => exact ih (ready_applyAt h o)

/-- **What is refused changes nothing.** Whatever has happened to a session, an operation that is
carried out in place responds what the operation responds, and leaves what it leaves; if it is
refused, it leaves the session as it was. An open session only refuses to start flows, and exactly
if one of them is unknown. -/
theorem refused_unchanged (name : String) (library : FlowLibrary) (limits : Limits)
    (context : Params) (os : List (Instant × Operation)) (o : Operation) :
    let s := os.foldl applyAt (new name library limits context)
    (s.attempt o).1 = (s.respond o).map Prod.fst ∧ (s.attempt o).2 = s.apply o ∧
      (∀ e, (s.attempt o).1 = .error e → (s.attempt o).2 = s) ∧
      ∀ e, (s.attempt o).1 = .error e ↔ s.Refuses o e := by
  intro s
  have hs : s.Sound :=
    (ready_foldl_applyAt (ready_new name library limits context) os).orderly.sound
  rw [apply_eq_respond, attempt_eq hs o]
  refine ⟨?_, ?_, ?_, fun e => ?_⟩
  · cases s.respond o <;> rfl
  · cases s.respond o <;> rfl
  · cases s.respond o with
    | ok p => exact nofun
    | error e => exact fun _ _ => rfl
  · rw [← respond_eq_error_iff hs]
    cases s.respond o <;> simp [outcome]

end Session

end Dialogue
