import Dialogue.Proofs.Program.Validation
import Dialogue.Proofs.Session.Conservation

/-!
# Libraries that have been checked do not go wrong

A library is there only if its references have been checked. Sessions on it then meet no error that
only a flow with a flaw can meet: none of its flows starts a flow that does not exist, and none runs
out of time where it has nothing to do about it. Whatever an instance sends has been declared, what
it starts or awaits is a flow of the library and gets only arguments that this flow takes, and what
it calls is an action that the library names.

Instances run only flows of the library, whichever way they have begun, and what they do at a step
is what an instruction of that flow says. So it is enough that all instructions are valid.

## Main definitions

* `FlowError.IsFlaw` — an error that only a flow with a flaw can meet
* `FlowLibrary.IsValid` — all instructions of a library are valid
* `Cascade.Sane` — nothing has gone wrong
* `Session.steps` — the steps that instances make in a turn
* `Cascade.resumption?` — how an instance goes on after its wait
* `Step.Keeps` — a step keeps to what the library offers

## Main results

* `Cascade.Act.sane` — nothing goes wrong by an act on a valid library
* `Session.sane_applyAll` — nor in a run
* `Cascade.exists_of_resumption?` — an instance goes on by an activation
* `Session.hosted_steps` — whoever makes a step runs a flow of the library
* `Session.checked_library_safe` — sessions on a library that has been checked do not go wrong
-/

namespace Dialogue

open Relation (ReflTransGen)

/-- An error that only a flow with a flaw can meet. -/
def FlowError.IsFlaw : FlowError → Prop
  | unknownFlow _ | timeoutUnhandled => True
  | _ => False

/-- All instructions of a library are valid. -/
def FlowLibrary.IsValid (library : FlowLibrary) : Prop :=
  ∀ name flow pc instr, library.get? name = some flow → flow.program.get? pc = some instr →
    instr.IsValid library

namespace Cascade

variable {c c' : Cascade} {id : InstanceId} {i : Instance}

/-! ## Acts -/

/-- Nothing has gone wrong: only flows of the library run, nobody has failed for a flaw or was ended
for one, and only actions that the library names have been asked for. -/
structure Sane (c : Cascade) : Prop where
  runs : c.toSession.RunsLibrary
  failures : ∀ f ∈ c.failures, ¬ f.error.IsFlaw
  reasons : ∀ id flow reason, .flowAborted id flow reason ∈ c.notices →
    ∃ e : FlowError, ¬ e.IsFlaw ∧ reason = e.message
  requests : ∀ r ∈ c.calls.queue, r.action ∈ c.library.actions

/-- An error of a live instance comes of no flaw. -/
theorem Sane.not_isFlaw (h : c.Sane) (valid : c.library.IsValid)
    (hi : c.instances.get? id = some i) {error : FlowError}
    (cause : error.Explained c.library i.flow) : ¬ error.IsFlaw := by
  obtain ⟨name, known⟩ := h.runs id i hi
  intro flaw
  cases error with
  | unknownFlow missing =>
    obtain ⟨none_eq, instr, args, ⟨pc, place⟩, starts⟩ := cause
    obtain ⟨flow, found, -⟩ := (valid name _ pc instr known place).starts _ _ starts
    rw [none_eq] at found
    cases found
  | timeoutUnhandled =>
    obtain ⟨s, ⟨pc, place⟩, timed, nowhere⟩ := cause
    have somewhere := (valid name _ pc _ known place).times s rfl timed
    rw [nowhere] at somewhere
    cases somewhere
  | _ => exact flaw

/-- Nothing goes wrong if nobody ends. -/
theorem Sane.of_frame (h : c.Sane) (runs : c'.toSession.RunsLibrary)
    (library : c'.library = c.library) (failures : ∀ f ∈ c'.failures, f ∈ c.failures)
    (notices : ∀ n ∈ c'.notices, n ∈ c.notices ∨ ∀ id flow reason, n ≠ .flowAborted id flow reason)
    (requests : ∀ r ∈ c'.calls.queue, r ∈ c.calls.queue) : c'.Sane where
  runs := runs
  failures f hf := h.failures f (failures f hf)
  reasons id flow reason told := by
    rcases notices _ told with old | other
    · exact h.reasons id flow reason old
    · exact absurd rfl (other id flow reason)
  requests r hr := library ▸ h.requests r (requests r hr)

theorem runsLibrary_of_survivors (h : c.toSession.RunsLibrary)
    (sv : c.toSession.Survivors c'.toSession) (library : c'.library = c.library) :
    c'.toSession.RunsLibrary := by
  refine h.of_flows library fun k i' hi' => ?_
  obtain ⟨i, hi, left⟩ := sv k i' hi'
  exact ⟨k, i, hi, left.flow⟩

theorem Sane.spawn {flow args parent isDetached} (h : c.Sane)
    (spawned : c.spawn flow args parent isDetached = some (id, c'))
    (live : ∀ p, parent = some p → (c.instances.get? p).isSome) : c'.Sane := by
  have change : c.Change c' := .begin spawned live
  have runs := change.runsLibrary h.runs
  have library := change.library
  obtain ⟨_, _, _, _, _, _, _, rfl⟩ := begins_of_spawn spawned
  refine h.of_frame runs library (fun _ hf => hf) (fun n hn => ?_) fun _ hr => hr
  rcases Array.mem_push.1 hn with old | rfl
  · exact .inl old
  · exact .inr nofun

theorem Sane.abort (h : c.Sane) (hi : c.instances.get? i.id = some i) {error : FlowError}
    (sound : ¬ error.IsFlaw) : (c.abort i.id error).Sane := by
  have ends := ends_abort hi rfl error
  refine ⟨runsLibrary_of_survivors h.runs ends.survivors ends.library, ?_, ?_,
    fun r hr => ends.library ▸ h.requests r (ends.calls.queue r hr)⟩
  · rw [abort_eq hi]
    exact h.failures
  · rw [abort_eq hi]
    intro id flow reason told
    rcases Array.mem_push.1 told with old | new
    · exact h.reasons id flow reason old
    · obtain ⟨-, -, rfl⟩ := Notice.flowAborted.inj new
      exact ⟨error, sound, rfl⟩

/-- Nothing goes wrong by an act on a valid library. -/
theorem Act.sane (h : c.Act c') (valid : c.library.IsValid) (hc : c.Sane) : c'.Sane := by
  -- Only an end tells of a reason, and only a call is requested.
  cases h with
  | launch spawned => exact hc.spawn spawned nofun
  | start hosts has starts evaluated spawned =>
    obtain ⟨j, hj, -⟩ := hosts
    refine hc.spawn spawned fun p hp => ?_
    obtain rfl := Option.some.inj hp
    rw [hj]
    rfl
  | @conclude i live awake =>
    have ends := ends_conclude live rfl awake
    refine hc.of_frame (runsLibrary_of_survivors hc.runs ends.survivors ends.library) rfl
      (fun _ hf => hf) (fun n hn => ?_) fun _ hr => hr
    rcases Array.mem_push.1 hn with old | rfl
    · exact .inl old
    · exact .inr nofun
  | abort live cause => exact hc.abort live (hc.not_isFlaw valid live cause)
  | @fail i error live cause =>
    have sound := hc.not_isFlaw valid live cause
    have reported : ({ c with
        failures := c.failures.push ⟨i.id, i.flowName, error⟩ } : Cascade).Sane := by
      refine ⟨hc.runs, fun f hf => ?_, hc.reasons, hc.requests⟩
      rcases Array.mem_push.1 hf with old | rfl
      · exact hc.failures f old
      · exact sound
    exact reported.abort live sound
  | change live flow =>
    exact ⟨hc.runs.of_flows rfl (flows_insert live flow), hc.failures, hc.reasons, hc.requests⟩
  | send | assign => exact ⟨hc.runs, hc.failures, hc.reasons, hc.requests⟩
  | @call p f instr action hosts has calls params =>
    obtain ⟨j, hj, rfl⟩ := hosts
    obtain ⟨pc, place⟩ := has
    obtain ⟨name, known⟩ := hc.runs p j hj
    refine ⟨hc.runs, hc.failures, fun id flow reason told => ?_, fun r hr => ?_⟩
    · rcases Array.mem_push.1 told with old | new
      · exact hc.reasons id flow reason old
      · cases new
    · rcases List.mem_append.1 hr with old | new
      · exact hc.requests r old
      · obtain rfl := List.mem_singleton.1 new
        exact (valid name _ pc instr known place).calls action calls
  | cancel k =>
    exact ⟨hc.runs, hc.failures, hc.reasons,
      fun r hr => hc.requests r ((c.calls.loses_cancel k).queue r hr)⟩

theorem Acts.sane (h : Acts c c') (valid : c.library.IsValid) (hc : c.Sane) : c'.Sane := by
  induction h with
  | refl => exact hc
  | tail first last ih => exact last.sane ((Acts.library first).symm ▸ valid) ih

/-- Nothing goes wrong where nothing happens to the instances. -/
theorem Sane.quiet (hc : c.Sane) (h : c.Quiet c') : c'.Sane := by
  obtain ⟨ns, notices, silent⟩ := h.notices
  refine hc.of_frame ?_ h.aside.library (fun _ hf => h.failures ▸ hf) (fun n hn => ?_)
    h.aside.calls.queue
  · exact runsLibrary_of_survivors hc.runs (.of_eq h.aside.instances) h.aside.library
  · rw [← Array.mem_toList_iff, notices, List.mem_append] at hn
    refine hn.imp Array.mem_toList_iff.1 fun new id flow reason => ?_
    rintro rfl
    cases silent _ new

/-- Nothing goes wrong until the queue is empty. -/
theorem sane_drain : ∀ (budget : Nat) {c : Cascade}, c.toSession.Sound → c.library.IsValid →
    c.Sane → (drain budget c).Sane
  | budget, c, hs, valid, hc => by
    unfold drain
    cases c.queue with
    | nil => exact hc
    | cons e rest =>
      cases budget with
      | zero => exact hc.quiet (.of_eq (aside_poison c) rfl rfl)
      | succ budget =>
        let c₁ : Cascade := { c with queue := rest }
        have popped : c₁.Sane := hc.quiet (.of_eq (aside_pop c rest) rfl rfl)
        have acts : Acts c₁ (c₁.deliver e) := acts_deliver (c := c₁) hs e
        obtain ⟨quiet, -⟩ := (c₁.deliver e).quiet_settle
        have settled := (acts.sane valid popped).quiet quiet
        have library : (c₁.deliver e).settle.library = c₁.library :=
          quiet.aside.library.trans (Acts.library acts)
        have hs₂ := (Passes.aside quiet.aside).sound ((path_deliver (c := c₁) hs e).sound hs)
        exact sane_drain budget hs₂ (library ▸ valid) settled

end Cascade

/-! ## Runs -/

namespace Session

variable {s : Session} {o : Operation}

/-- Nothing goes wrong in a turn. -/
theorem sane_turn? (hs : s.Sound) (valid : s.library.IsValid) (h : s.openCascade.Sane)
    {ms : List Moment} {c : Cascade} (ht : s.turn? o = some (ms, c)) :
    (Cascade.drain c.limits.cascadeSteps c.settle).Sane := by
  obtain ⟨c₁, acts, quiet, -⟩ := exists_acts_turn? hs ht
  obtain ⟨settled, -⟩ := c.quiet_settle
  have library : c.settle.library = s.library :=
    settled.aside.library.trans (quiet.aside.library.trans (Cascade.Acts.library acts))
  have sound := (Cascade.Passes.aside settled.aside).sound ((path_turn? hs ht).passes_sound hs)
  have opened := (acts.sane valid h).quiet quiet
  exact Cascade.sane_drain _ sound (library ▸ valid) (opened.quiet settled)

theorem library_apply (hs : s.Sound) (o : Operation) : (s.apply o).library = s.library :=
  (path_history hs o).passes_library

/-- What a turn leaves to the next one is all but its failures. -/
theorem sane_reopen {c : Cascade} (h : c.Sane) : c.toSession.openCascade.Sane :=
  ⟨h.runs, by simp [openCascade], h.reasons, h.requests⟩

theorem sane_apply (hs : s.Sound) (valid : s.library.IsValid) (h : s.openCascade.Sane)
    (o : Operation) : (s.apply o).openCascade.Sane := by
  rw [apply_eq]
  cases ht : s.turn? o with
  | some t => exact sane_reopen (sane_turn? hs valid h ht)
  | none =>
    have runs := (s.passes_idle o).runsLibrary h.runs
    -- What is no turn takes something out of the session, or ends it.
    cases o with
    | close reason =>
      show (s.close reason).openCascade.Sane
      have runs : (s.close reason).RunsLibrary := runs
      unfold close at runs ⊢
      split at runs
      · next closed => rwa [if_pos closed]
      · next isOpen =>
        rw [if_neg isOpen]
        refine h.of_frame runs rfl (fun _ hf => hf) (fun n hn => ?_) nofun
        rcases Array.mem_push.1 hn with old | rfl
        · exact .inl old
        · exact .inr nofun
    | takeRequests => exact h.of_frame runs rfl (fun _ hf => hf) (fun _ hn => .inl hn) nofun
    | takeNotices =>
      refine h.of_frame runs rfl (fun _ hf => hf) ?_ fun _ hr => hr
      simp [idle, takeNotices, openCascade]
    | elapse now => exact h.of_frame runs rfl (fun _ hf => hf) (fun _ hn => .inl hn) fun _ hr => hr
    | _ => exact h

theorem sane_applyAll (hs : s.Sound) (valid : s.library.IsValid) (h : s.openCascade.Sane)
    (os : List Operation) : (s.applyAll os).openCascade.Sane := by
  induction os generalizing s with
  | nil => exact h
  | cons o rest ih =>
    exact ih (sound_apply hs o) ((library_apply hs o).symm ▸ valid) (sane_apply hs valid h o)

theorem sane_new (name : String) (library : FlowLibrary) (limits : Limits) (context : Params) :
    (new name library limits context).openCascade.Sane where
  runs _ _ hi := by cases hi
  failures := by simp [openCascade]
  reasons := by simp [new, openCascade]
  requests _ hr := by cases hr

/-- What is told in a run of instances that were ended early. -/
theorem reasons_logOf (hs : s.Sound) (valid : s.library.IsValid) (h : s.openCascade.Sane)
    (os : List Operation) {id : InstanceId} {flow reason : String}
    (told : .flowAborted id flow reason ∈ s.logOf os) :
    ∃ e : FlowError, ¬ e.IsFlaw ∧ reason = e.message := by
  induction os generalizing s with
  | nil => exact h.reasons id flow reason (Array.mem_toList_iff.1 told)
  | cons o rest ih =>
    rcases List.mem_append.1 told with now | later
    · cases o with
      | takeNotices => exact h.reasons id flow reason (Array.mem_toList_iff.1 now)
      | _ => cases now
    · exact ih (sound_apply hs o) ((library_apply hs o).symm ▸ valid) (sane_apply hs valid h o)
        later

end Session

/-! ## Steps -/

namespace Cascade

/-- The steps while the instances of a stack are run: who makes a step, and when. -/
def stackSteps (root : InstanceId) : Nat → List InstanceId → Cascade → List (Cascade × Instance)
  | budget, stack, c =>
    match c.firstRunning? stack with
    | none => []
    | some (i, rest) =>
      match budget with
      | 0 => []
      | budget + 1 =>
        (c, i) :: stackSteps root budget ((c.step i).2 ++ i.id :: rest) (c.step i).1

/-- The steps of an activation. -/
def activateSteps (c : Cascade) (id : InstanceId) : List (Cascade × Instance) :=
  stackSteps id c.limits.activationSteps [id] c

/-- The steps when the wait of an instance is resolved. -/
def resumeSteps (c : Cascade) (id : InstanceId) (r : Resolution) : List (Cascade × Instance) :=
  match c.instances.get? id with
  | none => []
  | some i =>
    if !i.isWaiting then []
    else
      match r with
      | .arm index arm bindings =>
        match checkBindings i.locals bindings i.isParameter with
        | .error _ => []
        | .ok () => ((c.disarm i (some index)).relocate id arm.resume bindings).activateSteps id
      | .failure index arm _ =>
        match arm.onFailure with
        | some handler => ((c.disarm i (some index)).relocate id handler ∅).activateSteps id
        | none => []
      | .timeout handler =>
        match handler with
        | some handler => ((c.disarm i none).relocate id handler ∅).activateSteps id
        | none => []

/-- The steps when waits are resolved, one after the other. -/
def resumeAllSteps : List (InstanceId × Resolution) → Cascade → List (Cascade × Instance)
  | [], _ => []
  | r :: rest, c => c.resumeSteps r.1 r.2 ++ resumeAllSteps rest (c.resume r.1 r.2)

/-- The steps of a delivery. -/
def deliverSteps (c : Cascade) (e : Event) : List (Cascade × Instance) :=
  resumeAllSteps (c.consumers e) (c.purge e)

/-- The steps until the queue is empty. -/
def drainSteps : Nat → Cascade → List (Cascade × Instance)
  | budget, c =>
    match c.queue with
    | [] => []
    | e :: rest =>
      match budget with
      | 0 => []
      | budget + 1 =>
        ({ c with queue := rest } : Cascade).deliverSteps e ++
          drainSteps budget (({ c with queue := rest } : Cascade).deliver e).settle

/-- The steps when a flow is launched. -/
def launchSteps (c : Cascade) (flow : String) (args : Params) : List (Cascade × Instance) :=
  match c.spawn flow args none false with
  | none => []
  | some (id, c) => c.activateSteps id

/-- The steps when flows are launched, one after the other. -/
def launchAllSteps : List String → Cascade → List (Cascade × Instance)
  | [], _ => []
  | flow :: rest, c =>
    c.launchSteps flow ∅ ++
      match c.launch flow ∅ with
      | none => []
      | some (_, c) => launchAllSteps rest c

end Cascade

/-- The steps that instances make in the turn of an operation. -/
def Session.steps (s : Session) (o : Operation) : List (Cascade × Instance) :=
  match s.turn? o with
  | none => []
  | some (_, c) =>
    (match o with
      | .start flows => Cascade.launchAllSteps flows s.openCascade
      | .startFlow flow args => s.openCascade.launchSteps flow args
      | _ => []) ++ Cascade.drainSteps c.limits.cascadeSteps c.settle

namespace Cascade

variable {library : FlowLibrary} {c c' d : Cascade} {id : InstanceId} {i : Instance}
  {r : Resolution}
  {x : Cascade × Instance}

/-- A cascade in which flows of a library run. -/
structure RunsOn (library : FlowLibrary) (c : Cascade) : Prop where
  sound : c.toSession.Sound
  runs : c.toSession.RunsLibrary
  library : c.library = library

theorem RunsOn.passes {ms : List Moment} (h : c.RunsOn library) (path : Path Passes c ms c') :
    c'.RunsOn library :=
  ⟨path.passes_sound h.sound, path.passes_runsLibrary h.runs, path.passes_library.trans h.library⟩

theorem RunsOn.path {ms : List Moment} (h : c.RunsOn library) (path : Path Change c ms c') :
    c'.RunsOn library :=
  h.passes (path.mono fun _ _ => .change)

/-- Whoever makes a step is live, and runs a flow of the library. -/
def Hosted (library : FlowLibrary) (x : Cascade × Instance) : Prop :=
  x.1.instances.get? x.2.id = some x.2 ∧ ∃ name, library.get? name = some x.2.flow

theorem hosted_stackSteps (root : InstanceId) : ∀ (budget : Nat) (stack : List InstanceId)
    {c : Cascade}, c.RunsOn library → ∀ x ∈ stackSteps root budget stack c, Hosted library x
  | budget, stack, c, h, x, hx => by
    unfold stackSteps at hx
    split at hx
    · cases hx
    · next i rest first =>
      cases budget with
      | zero => cases hx
      | succ budget =>
        obtain ⟨id, hi, hr, -⟩ := firstRunning?_eq_some first
        have live := (h.sound.id_eq hi).symm ▸ hi
        rcases List.mem_cons.1 hx with rfl | hx
        · obtain ⟨name, known⟩ := h.runs id i hi
          exact ⟨live, name, h.library ▸ known⟩
        · exact hosted_stackSteps root budget _ (h.path (path_step h.sound live hr)) x hx

theorem hosted_activateSteps (h : c.RunsOn library) (id : InstanceId) :
    ∀ x ∈ c.activateSteps id, Hosted library x :=
  hosted_stackSteps id _ _ h

/-- An instance whose wait is resolved, when it begins to go on. -/
def resumption? (c : Cascade) (id : InstanceId) (r : Resolution) : Option Cascade :=
  match c.instances.get? id with
  | none => none
  | some i =>
    if !i.isWaiting then none
    else
      match r with
      | .arm index arm bindings =>
        match checkBindings i.locals bindings i.isParameter with
        | .error _ => none
        | .ok () => some ((c.disarm i (some index)).relocate id arm.resume bindings)
      | .failure index arm _ =>
        match arm.onFailure with
        | some handler => some ((c.disarm i (some index)).relocate id handler ∅)
        | none => none
      | .timeout handler =>
        match handler with
        | some handler => some ((c.disarm i none).relocate id handler ∅)
        | none => none

/-- The steps of a resolution are those of the instance that goes on. -/
theorem resumeSteps_eq (c : Cascade) (id : InstanceId) (r : Resolution) :
    c.resumeSteps id r = ((c.resumption? id r).map (·.activateSteps id)).getD [] := by
  unfold resumeSteps resumption?
  cases c.instances.get? id with
  | none => rfl
  | some i =>
    dsimp only
    split
    · rfl
    · cases r with
      | arm index arm bindings =>
        dsimp only
        cases checkBindings i.locals bindings i.isParameter <;> rfl
      | failure index arm reason =>
        dsimp only
        cases arm.onFailure <;> rfl
      | timeout handler => cases handler <;> rfl

/-- An instance that goes on after its wait has been woken, and what it does not need any more has
been given up. -/
theorem exists_of_resumption? (h : c.resumption? id r = some d) : ∃ i w kept pc bindings,
    c.instances.get? id = some i ∧ i.wait? = some w ∧
      d = (c.disarm i kept).relocate id pc bindings ∧ c.resume id r = d.activate id := by
  unfold resumption? at h
  unfold resume
  cases hi : c.instances.get? id with
  | none => simp [hi] at h
  | some i =>
    cases hw : i.wait? with
    | none => simp [hi, Instance.isWaiting, hw] at h
    | some w =>
      simp only [hi, Instance.isWaiting, hw, Option.isSome_some, Bool.not_true,
        Bool.false_eq_true, if_false] at h ⊢
      -- Resolutions differ in the arm that is kept and in the place where the instance goes on.
      cases r with
      | arm index arm bindings =>
        cases check : checkBindings i.locals bindings i.isParameter with
        | error e => simp [check] at h
        | ok _ =>
          simp only [check, Option.some.injEq] at h ⊢
          exact ⟨i, w, _, _, _, rfl, hw, h.symm, by rw [advance_eq, h]⟩
      | failure index arm reason =>
        cases handler : arm.onFailure with
        | none => simp [handler] at h
        | some pc =>
          simp only [handler, Option.some.injEq] at h ⊢
          exact ⟨i, w, _, _, _, rfl, hw, h.symm, by rw [advance_eq, h]⟩
      | timeout handler =>
        cases handler with
        | none => cases h
        | some pc =>
          simp only [Option.some.injEq] at h ⊢
          exact ⟨i, w, _, _, _, rfl, hw, h.symm, by rw [advance_eq, h]⟩

theorem hosted_resumeSteps (h : c.RunsOn library) (id : InstanceId) (r : Resolution) :
    ∀ x ∈ c.resumeSteps id r, Hosted library x := by
  rw [resumeSteps_eq]
  cases resumed : c.resumption? id r with
  | none => exact List.forall_mem_nil _
  | some d =>
    obtain ⟨i, w, kept, pc, bindings, hi, hw, rfl, -⟩ := exists_of_resumption? resumed
    have d := disarms h.sound hi hw kept
    have woken : (c.disarm i kept).RunsOn library := h.path (d.path none)
    have moved := goesOn_relocate (d.sound h.sound) d.awake pc bindings
    exact hosted_activateSteps (woken.path (.of_changes moved.changes)) id

theorem hosted_resumeAllSteps : ∀ (rs : List (InstanceId × Resolution)) {c : Cascade},
    c.RunsOn library → ∀ x ∈ resumeAllSteps rs c, Hosted library x
  | [], _, _ => List.forall_mem_nil _
  | r :: rest, c, h => by
    rw [resumeAllSteps]
    exact List.forall_mem_append.2 ⟨hosted_resumeSteps h r.1 r.2,
      hosted_resumeAllSteps rest (h.path (path_resume h.sound r.1 r.2))⟩

theorem hosted_drainSteps : ∀ (budget : Nat) {c : Cascade}, c.RunsOn library →
    ∀ x ∈ drainSteps budget c, Hosted library x
  | budget, c, h => by
    unfold drainSteps
    cases c.queue with
    | nil => exact List.forall_mem_nil _
    | cons e rest =>
      cases budget with
      | zero => exact List.forall_mem_nil _
      | succ budget =>
        let c₁ : Cascade := { c with queue := rest }
        have popped : c₁.RunsOn library := h.passes (.single (.aside (aside_pop c rest)))
        have purged : (c₁.purge e).RunsOn library :=
          popped.path (.of_changes (changes_purge popped.sound e))
        have settled : (c₁.deliver e).settle.RunsOn library :=
          (popped.path (path_deliver popped.sound e)).passes (.single (.aside (aside_settle _)))
        exact List.forall_mem_append.2
          ⟨hosted_resumeAllSteps _ purged, hosted_drainSteps budget settled⟩

theorem hosted_launchSteps (h : c.RunsOn library) (flow : String) (args : Params) :
    ∀ x ∈ c.launchSteps flow args, Hosted library x := by
  unfold launchSteps
  split
  · exact List.forall_mem_nil _
  · next id c' spawned =>
    have begun : c.Change c' := .begin spawned nofun
    exact hosted_activateSteps (h.path (.single begun)) id

theorem hosted_launchAllSteps : ∀ (flows : List String) {c : Cascade}, c.RunsOn library →
    ∀ x ∈ launchAllSteps flows c, Hosted library x
  | [], _, _ => List.forall_mem_nil _
  | flow :: rest, c, h => by
    rw [launchAllSteps]
    refine List.forall_mem_append.2 ⟨hosted_launchSteps h flow ∅, ?_⟩
    split
    · exact List.forall_mem_nil _
    · next launched => exact hosted_launchAllSteps rest (h.path (path_launch h.sound launched))

end Cascade

namespace Session

variable {s : Session} {o : Operation}

/-- Whoever makes a step runs a flow of the library. -/
theorem hosted_steps (h : s.openCascade.RunsOn s.library) (o : Operation) :
    ∀ x ∈ s.steps o, Cascade.Hosted s.library x := by
  unfold steps
  split
  · exact List.forall_mem_nil _
  · next ms c ht =>
    have opened := h.passes (path_turn? h.sound ht)
    have settled := opened.passes (.single (.aside (Cascade.aside_settle c)))
    refine List.forall_mem_append.2 ⟨?_, Cascade.hosted_drainSteps _ settled⟩
    split
    · exact Cascade.hosted_launchAllSteps _ h
    · exact Cascade.hosted_launchSteps h _ _
    · exact List.forall_mem_nil _

/-! ## Answers -/

end Session

namespace Cascade

/-- The only fault of a turn is that it did not come to its end. -/
theorem isFatal_drain : ∀ (budget : Nat) {c : Cascade}, c.Ready → c.fault = none →
    ∀ e, (drain budget c).fault = some e → e.isFatal = true
  | budget, c, h, clean, e, he => by
    unfold drain at he
    split at he
    · rw [clean] at he
      cases he
    · next e' rest _ =>
      cases budget with
      | zero =>
        obtain rfl := Option.some.inj he
        rfl
      | succ budget =>
        let c₁ : Cascade := { c with queue := rest }
        obtain ⟨ledger, -⟩ := (path_deliver (c := c₁) h.orderly.sound e').ledger
        have same : (c₁.deliver e').fault = c.fault := congrArg (fun l => l.2.2) ledger
        have settled : (c₁.deliver e').settle.fault = none :=
          (numbers_settle (c₁.deliver e')).2.2.trans (same.trans clean)
        exact isFatal_drain budget ((h.pop rest).deliver e') settled e he

end Cascade

namespace Session

variable {s : Session}

/-- The only fault of a session is that a turn did not come to its end. -/
theorem isFatal_apply (h : s.openCascade.Ready) (fatal : ∀ e, s.fault = some e → e.isFatal = true)
    (o : Operation) : ∀ e, (s.apply o).fault = some e → e.isFatal = true := by
  rw [apply_eq]
  cases ht : s.turn? o with
  | none => exact (s.fault_idle o).symm ▸ fatal
  | some t =>
    obtain ⟨ms, c⟩ := t
    have clean : c.settle.fault = none := (Cascade.numbers_settle c).2.2.trans
      ((opens_turn? h.orderly.sound ht).fault.trans (fault_of_turn? ht))
    exact Cascade.isFatal_drain _ (ready_turn? h ht) clean

theorem isFatal_applyAll (h : s.openCascade.Ready)
    (fatal : ∀ e, s.fault = some e → e.isFatal = true) (os : List Operation) :
    ∀ e, (s.applyAll os).fault = some e → e.isFatal = true := by
  induction os generalizing s with
  | nil => exact fatal
  | cons o rest ih => exact ih (ready_apply h o) (isFatal_apply h fatal o)

/-- An input that is refused at once is not refused because a flow is unknown. -/
theorem checkOpen_ne_unknownFlow (fatal : ∀ e, s.fault = some e → e.isFatal = true)
    {missing : String} : s.checkOpen ≠ .error (.unknownFlow missing) := by
  unfold checkOpen
  split
  · next fault hf =>
    intro same
    have := fatal fault hf
    rw [Except.error.inj same] at this
    cases this
  · split <;> exact nofun

theorem contains_of_start (hs : s.Sound) (fatal : ∀ e, s.fault = some e → e.isFatal = true)
    {flows : List String} {missing : String}
    (h : s.start flows = .error (.unknownFlow missing)) : s.library.contains missing = false := by
  cases isOpen : s.checkOpen with
  | error e =>
    rw [start_of_closed isOpen] at h
    obtain rfl := Except.error.inj h
    exact absurd isOpen (checkOpen_ne_unknownFlow fatal)
  | ok _ =>
    cases known : flows.find? fun name => !s.library.contains name with
    | some name =>
      rw [start_of_unknown isOpen known] at h
      obtain rfl := SessionError.unknownFlow.inj (Except.error.inj h)
      simpa using List.find?_some known
    | none =>
      obtain ⟨c, -, started⟩ := exists_start hs isOpen known
      rw [started] at h
      cases h

theorem contains_of_startFlow (fatal : ∀ e, s.fault = some e → e.isFatal = true)
    {flow missing : String} {args : Params}
    (h : s.startFlow flow args = .error (.unknownFlow missing)) :
    s.library.contains missing = false := by
  cases isOpen : s.checkOpen with
  | error e =>
    rw [startFlow_of_closed isOpen] at h
    obtain rfl := Except.error.inj h
    exact absurd isOpen (checkOpen_ne_unknownFlow fatal)
  | ok _ =>
    cases launched : s.openCascade.launch flow args with
    | some p =>
      rw [startFlow_of_launch isOpen launched] at h
      cases h
    | none =>
      rw [startFlow_of_unknown isOpen launched] at h
      obtain rfl := SessionError.unknownFlow.inj (Except.error.inj h)
      have unknown : s.library.flows.get? flow = none := Cascade.get?_of_launch_eq_none launched
      simp [FlowLibrary.contains, Table.contains, unknown]

end Session

/-! ## Safety -/

/-- The next step of an instance keeps to what a library offers: it sends only declared events,
starts or awaits only flows of the library with arguments that they take, and calls only actions
that the library names. -/
structure Instance.KeepsTo (library : FlowLibrary) (i : Instance) : Prop where
  sends : ∀ event params, i.flow.program.get? i.pc = some (.send event params) →
    library.vocabulary.contains event = true
  starts : ∀ instr target args scope values, i.flow.program.get? i.pc = some instr →
    instr.Starts target args → Expr.evalArguments scope args = .ok values →
      ∃ flow, library.get? target = some flow ∧
        ∀ key ∈ values.keys, key ∈ flow.definition.parameters
  calls : ∀ instr action, i.flow.program.get? i.pc = some instr → instr.Calls action →
    action ∈ library.actions

/-- Nothing goes wrong with a session on a library, whatever is done next. -/
structure Session.IsSafe (library : FlowLibrary) (s : Session) : Prop where
  /-- Nobody fails for a flaw. -/
  failures : ∀ o, ∀ f ∈ s.failed o, ¬ f.error.IsFlaw
  /-- All steps keep to what the library offers. -/
  steps : ∀ o, ∀ x ∈ s.steps o, x.2.KeepsTo library
  /-- Only actions are asked for that the library names, so they are available if that has been
  checked. -/
  requests : ∀ r ∈ s.takeRequests.1, r.action ∈ library.actions ∧
    ∀ available, library.checkActions available = .ok () → r.action ∈ available
  /-- Only flows are unknown that are not there. -/
  start : ∀ flows missing, s.start flows = .error (.unknownFlow missing) →
    library.contains missing = false
  startFlow : ∀ flow args missing, s.startFlow flow args = .error (.unknownFlow missing) →
    library.contains missing = false

namespace Session

/-- In no run on a library that has been checked anything goes wrong. Whoever was ended early was
not ended for a flaw. -/
theorem checked_library_safe {vocabulary : Vocabulary} {ds : List FlowDefinition}
    {library : FlowLibrary} (checked : FlowLibrary.ofDefinitions vocabulary ds = .ok library)
    (name : String) (limits : Limits) (context : Params) (os : List Operation) :
    let s₀ := new name library limits context
    (s₀.applyAll os).IsSafe library ∧
      ∀ id flow reason, .flowAborted id flow reason ∈ s₀.logOf os →
        ∃ e : FlowError, ¬ e.IsFlaw ∧ reason = e.message := by
  intro s₀
  have valid : library.IsValid := fun _ _ _ _ known place => FlowLibrary.isValid checked known place
  have sound₀ : s₀.Sound := sound_new name library limits context
  have sane₀ : s₀.openCascade.Sane := sane_new name library limits context
  have ready₀ : s₀.openCascade.Ready := ready_new name library limits context
  refine ⟨?_, fun id flow reason => reasons_logOf sound₀ valid sane₀ os⟩
  have hs := (path_historyOf sound₀ os).passes_sound sound₀
  have sane := sane_applyAll sound₀ valid sane₀ os
  have same : (s₀.applyAll os).library = library := (path_historyOf sound₀ os).passes_library
  have fatal := isFatal_applyAll ready₀ nofun os
  -- All that matters of the run is the state that it leaves.
  generalize s₀.applyAll os = s at hs sane same fatal
  subst same
  refine ⟨fun o f hf => ?_, fun o x hx => ?_, fun r hr => ?_,
    fun flows missing => contains_of_start hs fatal,
    fun flow args missing => contains_of_startFlow fatal⟩
  · rw [failed, perform?_eq] at hf
    cases ht : s.turn? o with
    | none =>
      rw [ht] at hf
      cases hf
    | some t =>
      rw [ht] at hf
      exact (sane_turn? hs valid sane ht).failures f (Array.mem_toList_iff.1 hf)
  · obtain ⟨-, known, found⟩ := hosted_steps ⟨hs, sane.runs, rfl⟩ o x hx
    refine ⟨fun event params place => (valid known _ _ _ found place).sends event params rfl,
      fun instr target args scope values place starts evaluated => ?_,
      fun instr action place => (valid known _ _ _ found place).calls action⟩
    rw [Expr.keys_of_evalArguments evaluated]
    exact (valid known _ _ _ found place).starts target args starts
  · have named := sane.requests r hr
    exact ⟨named, fun available available_ok => FlowLibrary.mem_of_checkActions available_ok named⟩

/-- A flow that starts another one with an argument, and then calls an action. -/
def callingFlows : List FlowDefinition :=
  [⟨"caller", [], "", [.start "helper" (Table.ofList [("word", .literal (.string "hi"))]) true,
      .execute "lookup" ∅ none none]⟩,
    ⟨"helper", ["word"], "", [.send EventName.botSay (Table.ofList [("text", .var "word")])]⟩]

/-- The action that it asks for is one that the library names. -/
theorem checked_library_safe_calling :
    ∃ library, FlowLibrary.ofDefinitions Vocabulary.standard callingFlows = .ok library ∧
      ∃ r ∈ ((new "session" library .standard ∅).applyAll [.start ["caller"]]).takeRequests.1,
        r.action ∈ library.actions := by
  have run : (FlowLibrary.ofDefinitions Vocabulary.standard callingFlows).toOption.any
      (fun library => !((new "session" library .standard ∅).applyAll
        [.start ["caller"]]).takeRequests.1.isEmpty) = true := by
    decide +kernel
  obtain ⟨library, loaded, run⟩ := exists_of_toOption_any run
  simp only [Bool.not_eq_true', List.isEmpty_eq_false_iff] at run
  obtain ⟨r, hr⟩ := List.exists_mem_of_ne_nil _ run
  obtain ⟨safe, -⟩ := checked_library_safe loaded "session" .standard ∅ [.start ["caller"]]
  exact ⟨library, loaded, r, hr, (safe.requests r hr).1⟩

end Session

end Dialogue
