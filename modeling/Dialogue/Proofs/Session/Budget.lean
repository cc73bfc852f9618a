import Dialogue.Proofs.Session.Stack

/-!
# The budget of an activation

One budget is shared by the instance that is activated and by all that it starts. If it is used up
while somebody has still to run, that is reported once, as a failure of the instance that was
activated. This instance goes down, and so does everybody who has still to run, each with all that
is attached to it. Everybody else is suspended by then, and stays so.

## Main definitions

* `Cascade.Reports` — what has been reported, besides budgets that have been used up
* `Cascade.Working` — the stack of an activation, and the state that goes with it
* `Cascade.IsDoomed` — who goes down when a budget is used up
* `Cascade.CutsShort` — what it is to be cut short

## Main results

* `Cascade.Working.cutsShort` — an activation that has used up its budget is cut short
* `Session.activation_bounded` — the activations of a run keep to their budget
-/

namespace Dialogue

theorem FlowError.IsUnbound.isStepLimit {e : FlowError} (h : e.IsUnbound) :
    e.isStepLimit = false := by
  cases h <;> rfl

namespace Cascade

variable {c c' d : Cascade} {id k root : InstanceId} {i : Instance} {n m : Nat}
  {stack stack' : List InstanceId}

/-! ## What is reported -/

/-- Something is done without a report. If it fails, it is not for the budget. -/
structure Unreported {α : Type} (c c' : Cascade) (r : Except FlowError α) : Prop where
  failures : c'.failures = c.failures
  cause : ∀ e, r = .error e → e.isStepLimit = false

theorem unreported_ok {α : Type} {a : α} (h : c'.failures = c.failures) :
    Unreported c c' (.ok a) :=
  ⟨h, nofun⟩

theorem unreported_error {α : Type} {e : FlowError} (cause : e.isStepLimit = false) :
    Unreported (α := α) c c (.error e) :=
  ⟨rfl, fun _ he => Except.error.inj he ▸ cause⟩

theorem Unreported.error {α β : Type} {e : FlowError} (failures : c'.failures = c.failures)
    (h : Unreported (α := α) c' d (.error e)) : Unreported (α := β) c d (.error e) :=
  ⟨h.failures.trans failures, fun _ he => Except.error.inj he ▸ h.cause e rfl⟩

theorem failures_spawn {flow args parent isDetached}
    (h : c.spawn flow args parent isDetached = some (id, c')) : c'.failures = c.failures := by
  obtain ⟨-, -, -, -, -, -, -, rfl⟩ := begins_of_spawn h
  rfl

theorem unreported_armLead {lead : Lead} {r : Except FlowError Armed}
    (h : c.armLead i lead = (c', r)) : Unreported c c' r := by
  cases startsLead_armLead h with
  | event | call => exact unreported_ok rfl
  | unbound failed => exact unreported_error failed.isStepLimit
  | missing => exact unreported_error rfl
  | child _ spawned => exact unreported_ok (failures_spawn spawned)

theorem unreported_armAll {arms : List Arm} {r : Except FlowError (List Armed)}
    (h : c.armAll i arms = (c', r)) : Unreported c c' r := by
  induction arms generalizing c r with
  | nil =>
    cases startsLeads_armAll h with
    | nil => exact unreported_ok rfl
  | cons arm rest ih =>
    cases startsLeads_armAll h with
    | fail first => exact (unreported_armLead first).error rfl
    | stall first others => exact (ih others).error (unreported_armLead first).failures
    | cons first others =>
      exact unreported_ok ((ih others).failures.trans (unreported_armLead first).failures)

theorem failures_suspended (c : Cascade) (i : Instance) (arms : List Armed)
    (deadline : Option Instant) : (c.suspended i arms deadline).failures = c.failures := by
  obtain ⟨timer, timers, eq⟩ := exists_suspended_eq c i arms deadline
  rw [eq]
  rfl

theorem failures_terminate (hi : c.instances.get? root = some i) (error : FlowError)
    (isReported : Bool) : (c.terminate root error isReported).failures =
      if isReported then c.failures.push ⟨root, i.flowName, error⟩ else c.failures := by
  simp only [terminate, hi]
  exact failures_foldl_abort (fun id => if id = root then error else .parentTerminated i.label) _ _

theorem failures_terminate_silent (c : Cascade) (root : InstanceId) (error : FlowError) :
    (c.terminate root error false).failures = c.failures := by
  cases hi : c.instances.get? root with
  | none => rw [terminate_eq_self hi]
  | some i => simp [failures_terminate hi]

theorem failures_terminateAll (error : FlowError) (ids : List InstanceId) (c : Cascade) :
    (c.terminateAll ids error).failures = c.failures := by
  induction ids generalizing c with
  | nil => rfl
  | cons id rest ih => exact (ih _).trans (failures_terminate_silent c id error)

theorem failures_complete (c : Cascade) (id : InstanceId) :
    (c.complete id).failures = c.failures := by
  unfold complete
  split
  · rfl
  · exact failures_terminateAll ..

/-- An instruction reports nothing. -/
theorem unreported_execute {instr : Instr} {r : Except FlowError (List InstanceId)}
    (h : c.execute i instr = (c', r)) : Unreported c c' r := by
  cases carriesOut_execute h with
  | unbound failed => exact unreported_error failed.isStepLimit
  | beyond | abort => exact unreported_error rfl
  | missing => exact ⟨rfl, fun _ he => Except.error.inj he ▸ rfl⟩
  | stall failed => exact (unreported_armAll failed).error rfl
  | suspend _ armed =>
    exact unreported_ok ((failures_suspended ..).trans (unreported_armAll armed).failures)
  | start _ spawned =>
    have begun := failures_spawn spawned
    exact unreported_ok begun
  | send | share | bind | branch | jump => exact unreported_ok rfl
  | finish => exact unreported_ok (failures_complete c i.id)

/-- Failures have been reported, but none for a budget. -/
def Reports (c c' : Cascade) : Prop :=
  ∃ fs, c'.failures.toList = c.failures.toList ++ fs ∧ ∀ f ∈ fs, f.error.isStepLimit = false

theorem Reports.of_eq (h : c'.failures = c.failures) : Reports c c' :=
  ⟨[], by rw [h, List.append_nil], List.forall_mem_nil _⟩

theorem Reports.trans (h : Reports c c') (h' : Reports c' d) : Reports c d := by
  obtain ⟨fs, eq, limitless⟩ := h
  obtain ⟨fs', eq', limitless'⟩ := h'
  refine ⟨fs ++ fs', by rw [eq', eq, List.append_assoc], ?_⟩
  exact List.forall_mem_append.2 ⟨limitless, limitless'⟩

/-- A step reports an error of its instance at most. -/
theorem reports_step (c : Cascade) (i : Instance) : Reports c (c.step i).1 := by
  unfold step
  split
  · next done => exact .of_eq (unreported_execute done).failures
  · next c₁ e failed =>
    have executed := unreported_execute failed
    refine Reports.trans (.of_eq executed.failures) ?_
    cases hi : c₁.instances.get? i.id with
    | none => exact .of_eq (by rw [terminate_eq_self hi])
    | some j =>
      refine ⟨[⟨i.id, j.flowName, e⟩], ?_, ?_⟩
      · simp [failures_terminate hi]
      · simpa using executed.cause e rfl

theorem Proceeds.reports (h : Proceeds stack c n stack' c') : Reports c c' :=
  h.induct (P := fun _ d => Reports c d) (.of_eq rfl) (fun _ _ _ _ hd => hd)
    fun i _ d _ _ hd => hd.trans (reports_step d i)

/-! ## Who makes a step -/

theorem length_stackSteps_le (root : InstanceId) : ∀ (budget : Nat) (stack : List InstanceId)
    (c : Cascade), (stackSteps root budget stack c).length ≤ budget
  | budget, stack, c => by
    unfold stackSteps
    split
    · exact Nat.zero_le _
    · cases budget with
      | zero => exact Nat.le_refl _
      | succ budget => exact Nat.succ_le_succ (length_stackSteps_le root budget _ _)

/-- Steps are made by those on a stack and by those that begin meanwhile. -/
theorem owner_of_mem_stackSteps {root' : InstanceId} : ∀ (budget : Nat) {stack : List InstanceId}
    {c : Cascade}, c.toSession.Sound → m ≤ c.created → (∀ k ∈ stack, k = root ∨ m < k.number) →
      ∀ x ∈ stackSteps root' budget stack c, x.2.id = root ∨ m < x.2.id.number
  | budget, stack, c, hs, begun, own, x, hx => by
    unfold stackSteps at hx
    split at hx
    · cases hx
    · next i rest first =>
      obtain ⟨hi, hr, sub⟩ := suffix_of_firstRunning? hs first
      have own' : ∀ k ∈ i.id :: rest, k = root ∨ m < k.number := fun k hk => own k (sub.mem hk)
      cases budget with
      | zero => cases hx
      | succ budget =>
        rcases List.mem_cons.1 hx with rfl | hx
        · exact own' _ List.mem_cons_self
        -- Those that begin with the step have numbers of their own, behind all that are in use.
        · have step := path_step hs hi hr
          have later := (step.mono fun _ _ => Passes.change).passes_later.created
          refine owner_of_mem_stackSteps budget (step.sound hs) (Nat.le_trans begun later) ?_ x hx
          refine List.forall_mem_append.2 ⟨fun k hk => .inr ?_, own'⟩
          exact Nat.lt_of_le_of_lt begun ((children_of_step hs hi hk).1 k hk)

/-! ## When a budget is used up -/

/-- A stack in the course of an activation. Whoever runs is on it, and as long as it is not empty,
what was activated is live. -/
structure Working (root : InstanceId) (stack : List InstanceId) (c : Cascade) : Prop where
  coherent : c.toSession.Coherent
  calm : Calm stack c
  anchored : stack = [] ∨ Anchored root stack c

theorem Activates.working (h : c.Activates id) : Working id [id] c :=
  ⟨h.coherent, h.calm, .inr ⟨.bottom, .inl rfl⟩⟩

theorem Working.skip (h : Working root (k :: stack) c) (idle : c.IsIdle k) :
    Working root stack c := by
  refine ⟨h.coherent, h.calm.tail idle, ?_⟩
  have anchored := h.anchored.resolve_left (List.cons_ne_nil k stack)
  cases anchored.rooted with
  | bottom => exact .inl rfl
  | push younger rooted =>
    refine .inr ⟨rooted, .inr (anchored.live.resolve_left fun single => ?_)⟩
    obtain ⟨-, rfl⟩ := List.cons.inj single
    cases rooted

/-- As long as somebody runs, what was activated is live. -/
theorem Working.live (h : Working root (i.id :: stack) c) (hi : c.instances.get? i.id = some i) :
    Rooted root (i.id :: stack) ∧ (c.instances.get? root).isSome := by
  have anchored := h.anchored.resolve_left (List.cons_ne_nil i.id stack)
  exact anchored.of_firstRunning? (by rw [hi]; rfl) (List.suffix_refl _)

theorem Working.step (h : Working root (i.id :: stack) c) (hi : c.instances.get? i.id = some i)
    (hr : i.phase = .running) : Working root ((c.step i).2 ++ i.id :: stack) (c.step i).1 := by
  obtain ⟨rooted, live⟩ := h.live hi
  refine ⟨coherent_step h.coherent hi hr,
    calm_step h.coherent.sound h.coherent.linked hi hr h.calm, .inr ?_⟩
  exact Anchored.step h.coherent.sound h.coherent.kinship hi hr rooted live

theorem Proceeds.working (h : Proceeds stack c n stack' c') (hc : Working root stack c) :
    Working root stack' c' :=
  h.induct (P := Working root) hc (fun _ _ _ idle hc => hc.skip idle)
    fun _ _ _ live running hc => hc.step live running

/-- Who goes down when a budget is used up: what is attached to the instance that was activated, or
to one that has still to run. -/
def IsDoomed (c : Cascade) (root k : InstanceId) : Prop :=
  c.toSession.Attached root k ∨
    ∃ j i, c.instances.get? j = some i ∧ i.phase = .running ∧ c.toSession.Attached j k

/-- An activation is cut short in a state, after a number of instructions. -/
structure CutsShort (c : Cascade) (root : InstanceId) (limit : Nat) (c' : Cascade) : Prop where
  /-- Somebody has still to run. -/
  unfinished : ∃ k i, c.instances.get? k = some i ∧ i.phase = .running
  /-- That is reported as a failure of the instance that was activated, and nothing else is. -/
  reported : ∃ i, c.instances.get? root = some i ∧
    c'.failures = c.failures.push ⟨root, i.flowName, .stepLimit limit⟩
  /-- Who goes down is ended early. -/
  aborted : ∀ k i, c.instances.get? k = some i → c.IsDoomed root k → c'.IsAborted k
  /-- Everybody else is suspended, and stays live where it is. -/
  spared : ∀ k i, c.instances.get? k = some i → ¬ c.IsDoomed root k →
    ∃ w i', i.phase = .waiting w ∧ c'.instances.get? k = some i' ∧ i.Unmoved i'

theorem failures_endRunning (error : FlowError) (c : Cascade) (id : InstanceId) :
    (c.endRunning error id).failures = c.failures := by
  unfold endRunning
  split
  · split
    · rfl
    · exact failures_terminate_silent c id error
  · rfl

theorem failures_foldl_endRunning (error : FlowError) (ids : List InstanceId) (c : Cascade) :
    (ids.foldl (endRunning error) c).failures = c.failures := by
  induction ids generalizing c with
  | nil => rfl
  | cons id rest ih => exact (ih _).trans (failures_endRunning error c id)

theorem failures_exhaust (hi : c.instances.get? root = some i) (stack : List InstanceId) :
    (c.exhaust root stack).failures =
      c.failures.push ⟨root, i.flowName, .stepLimit c.limits.activationSteps⟩ := by
  rw [exhaust_eq, failures_foldl_endRunning, failures_terminate hi, if_pos rfl]

theorem endsEarly_endRunning (hs : c.toSession.Sound) (error : FlowError) (id : InstanceId) :
    EndsEarly c (c.endRunning error id) := by
  unfold endRunning
  split
  · split
    · exact .refl c
    · exact endsEarly_terminate hs id error false
  · exact .refl c

theorem endsEarly_exhaust (hs : c.toSession.Sound) (root : InstanceId) (stack : List InstanceId) :
    EndsEarly c (c.exhaust root stack) := by
  have first := endsEarly_terminate hs root (.stepLimit c.limits.activationSteps) true
  rw [exhaust_eq]
  refine first.trans hs (endsEarly_foldl ?_ (Changes.sound first.changes hs) stack)
  exact fun _ hs id => endsEarly_endRunning hs _ id

/-- The instance that was activated does not outlive that. -/
theorem get?_exhaust_self (hs : c.toSession.Sound) (root : InstanceId) (stack : List InstanceId) :
    (c.exhaust root stack).instances.get? root = none := by
  have first := changes_terminate hs root (.stepLimit c.limits.activationSteps) true
  have more := endsEarly_foldl (fun _ hs id => endsEarly_endRunning hs
    (.stepLimit c.limits.activationSteps) id) (Changes.sound first hs) stack
  rw [exhaust_eq]
  exact more.survivors.gone (get?_terminate_self hs root _ true)

/-- Who is doomed does not outlive it either. -/
theorem IsDoomed.gone (h : c.IsDoomed root k) (hc : Working root stack c) :
    (c.exhaust root stack).instances.get? k = none := by
  have hs := hc.coherent.sound
  have ended := endsEarly_exhaust hs root stack
  have linked := Changes.linked ended.changes hs hc.coherent.linked
  have later := Changes.later ended.changes
  rcases h with attached | ⟨j, i, hj, running, attached⟩
  · exact attached.gone hs later linked (get?_exhaust_self hs root stack)
  · refine attached.gone hs later linked ?_
    rw [Option.eq_none_iff_forall_ne_some]
    intro i' hi'
    -- It would still run, but nobody does.
    obtain ⟨i₀, hi₀, left⟩ := ended.survivors j i' hi'
    obtain rfl := Option.some.inj (hj.symm.trans hi₀)
    have runs := calm_exhaust hs root hc.calm j i' hi' (left.phase.trans running)
    exact absurd runs List.not_mem_nil

/-- A live instance that does not run is suspended. -/
theorem exists_waiting (hs : c.toSession.Sound) (hi : c.instances.get? k = some i)
    (idle : i.phase ≠ .running) : ∃ w, i.phase = .waiting w := by
  have live := (hs.instances k i hi).live
  cases hp : i.phase with
  | running => exact absurd hp idle
  | waiting w => exact ⟨w, rfl⟩
  | completed => simp [hp, Phase.isLive] at live
  | aborted => simp [hp, Phase.isLive] at live

/-- Those who are not doomed have nothing to do, and nobody takes them down. -/
theorem Working.shelters (h : Working root stack c) :
    Shelters (fun k => (c.instances.get? k).isSome ∧ ¬ c.IsDoomed root k) c where
  sound := h.coherent.sound
  kinship := h.coherent.kinship
  begun k hk := by
    obtain ⟨i, hi⟩ := Option.isSome_iff_exists.1 hk.1
    exact (h.coherent.sound.instances k i hi).begun
  above k i p hk hi parent attached := by
    obtain ⟨j, hj, -⟩ := h.coherent.linked k i p hi parent attached
    -- If the parent were doomed, what is attached to it would be doomed with it.
    refine ⟨by rw [hj]; rfl, fun doomed => hk.2 ?_⟩
    rcases doomed with above | ⟨l, j, hj, running, above⟩
    · exact .inl (.child above hi parent attached)
    · exact .inr ⟨l, j, hj, running, .child above hi parent attached⟩
  waits k i hk hi := by
    obtain ⟨w, waiting⟩ := exists_waiting h.coherent.sound hi fun running =>
      hk.2 (.inr ⟨k, i, hi, running, .root⟩)
    exact ⟨w, Instance.wait?_eq_some.2 waiting⟩

/-- An activation that has used up its budget is cut short. -/
theorem Working.cutsShort (h : Working root (i.id :: stack) c)
    (hi : c.instances.get? i.id = some i) (hr : i.phase = .running) :
    CutsShort c root c.limits.activationSteps (c.exhaust root (i.id :: stack)) where
  unfinished := ⟨i.id, i, hi, hr⟩
  reported := by
    obtain ⟨r, hroot⟩ := Option.isSome_iff_exists.1 (h.live hi).2
    exact ⟨r, hroot, failures_exhaust hroot _⟩
  aborted k j hj doomed := (endsEarly_exhaust h.coherent.sound root _).aborted k (by rw [hj]; rfl)
    (doomed.gone h)
  spared k j hj safe := by
    have sheltered := h.shelters
    obtain ⟨w, waits⟩ := sheltered.waits k j ⟨by rw [hj]; rfl, safe⟩ hj
    have spared := spares_exhaust sheltered (fun hroot => hroot.2 (.inl .root)) (i.id :: stack)
    obtain ⟨j', hj', unmoved⟩ := spared k j ⟨by rw [hj]; rfl, safe⟩ hj
    exact ⟨w, j', Instance.wait?_eq_some.1 waits, hj', unmoved⟩

theorem Proceeds.limits (h : Proceeds stack c n stack' c') (hc : c.toSession.Coherent) :
    c'.limits = c.limits := by
  have kept : c'.toSession.Coherent ∧ c'.limits = c.limits := by
    refine h.induct (P := fun _ d => d.toSession.Coherent ∧ d.limits = c.limits) ⟨hc, rfl⟩
      (fun _ _ _ _ hd => hd) fun i _ d live running hd => ?_
    obtain ⟨coherent, same⟩ := hd
    have step := (path_step coherent.sound live running).mono fun _ _ => Passes.change
    exact ⟨coherent_step coherent live running, step.passes_limits.trans same⟩
  exact kept.2

/-- An activation that keeps to its budget reports no budget that was used up. -/
theorem Activates.reports (h : c.Activates id) (enough : c.activateExcess? id = none) :
    Reports c (c.activate id) := by
  have worked := proceeds_stackExcess? c.limits.activationSteps [id] h.coherent.sound
  rw [← activateExcess?, enough] at worked
  obtain ⟨n, le, c', way⟩ := worked
  obtain ⟨budget, total⟩ := Nat.exists_eq_add_of_le le
  rw [Cascade.activate, total, way.runStack_eq, runStack_nil]
  exact way.reports

/-- An activation that uses up its budget is cut short when it has. -/
theorem Activates.cutsShort (h : c.Activates id) (used : c.activateExcess? id = some (d, stack)) :
    Proceeds [id] c c.limits.activationSteps stack d ∧
      (c.activateSteps id).length = c.limits.activationSteps ∧
        CutsShort d id c.limits.activationSteps (c.activate id) := by
  have worked := proceeds_stackExcess? c.limits.activationSteps [id] h.coherent.sound
  rw [← activateExcess?, used] at worked
  obtain ⟨way, i, rest, rfl, hi, hr⟩ := worked
  have count := way.length_stackSteps id 0
  have state := way.runStack_eq id 0
  rw [stackSteps_zero] at count
  rw [runStack_zero hi hr] at state
  have short := (way.working h.working).cutsShort hi hr
  rw [way.limits h.coherent, ← state] at short
  exact ⟨way, count, short⟩

end Cascade

namespace Session

open Cascade (Proceeds Reports CutsShort)

/-- Whenever an instance is activated in a run, it makes no more steps than the budget allows,
together with all that begin meanwhile, and then nobody is left who is not suspended. If the budget
is used up while somebody has still to run, the activation is cut short after that many
instructions, which is reported once. Otherwise no budget is reported. -/
theorem activation_bounded (name : String) (library : FlowLibrary) (limits : Limits)
    (context : Params) (os : List Operation) (o : Operation) (c : Cascade) (id : InstanceId)
    (activated : (c, id) ∈ ((new name library limits context).applyAll os).activations o) :
    (c.activateSteps id).length ≤ c.limits.activationSteps ∧
      (∀ x ∈ c.activateSteps id, x.2.id = id ∨ c.created < x.2.id.number) ∧
      (∀ k i, (c.activate id).instances.get? k = some i → ∃ w, i.phase = .waiting w) ∧
      (c.activateExcess? id = none → Reports c (c.activate id)) ∧
      ∀ d stack, c.activateExcess? id = some (d, stack) →
        Proceeds [id] c c.limits.activationSteps stack d ∧
          (c.activateSteps id).length = c.limits.activationSteps ∧ Reports c d ∧
            CutsShort d id c.limits.activationSteps (c.activate id) := by
  have activates := activates_of_mem (pauses_applyAll name library limits context os) activated
  have coherent : c.toSession.Coherent := activates.coherent
  refine ⟨Cascade.length_stackSteps_le _ _ _ _, ?_, ?_, activates.reports, ?_⟩
  · exact Cascade.owner_of_mem_stackSteps _ coherent.sound (Nat.le_refl _) (by simp)
  · intro k i hi
    have paused := activates.activate
    refine Cascade.exists_waiting paused.coherent.sound hi fun running => ?_
    exact absurd (paused.calm k i hi running) List.not_mem_nil
  · intro d stack used
    obtain ⟨way, count, short⟩ := activates.cutsShort used
    exact ⟨way, count, way.reports, short⟩

/-- A flow that starts itself again and again, and each time one that waits and may outlive it. -/
def spinningFlows : List FlowDefinition :=
  [⟨"main", [], "", [.start "sleeper" ∅ true, .start "main" ∅ false]⟩,
    ⟨"sleeper", [], "", [.expect ⟨EventName.userSaid, ∅, ∅, false⟩]⟩]

/-- With a budget of seven instructions two of those that wait have been suspended, and are left. -/
theorem activation_bounded_spinning :
    ∃ library, FlowLibrary.ofDefinitions Vocabulary.standard spinningFlows = .ok library ∧
      ∃ c d, (c, ⟨1⟩) ∈ ((new "session" library ⟨256, 7, 1000⟩ ∅).applyAll []).activations
          (.start ["main"]) ∧
        CutsShort d ⟨1⟩ 7 (c.activate ⟨1⟩) ∧
          (c.activate ⟨1⟩).instances.keys = [⟨2⟩, ⟨4⟩] := by
  have run : (FlowLibrary.ofDefinitions Vocabulary.standard spinningFlows).toOption.any
      (fun library => (((new "session" library ⟨256, 7, 1000⟩ ∅).applyAll []).activations
        (.start ["main"])).any fun a => a.2 = ⟨1⟩ && (a.1.activateExcess? a.2).isSome &&
          a.1.limits.activationSteps = 7 &&
            (a.1.activate a.2).instances.keys = [⟨2⟩, ⟨4⟩]) = true := by decide +kernel
  obtain ⟨library, loaded, run⟩ := exists_of_toOption_any run
  obtain ⟨⟨c, id⟩, activated, found⟩ := List.any_eq_true.1 run
  simp only [Bool.and_eq_true, decide_eq_true_eq] at found
  obtain ⟨⟨⟨rfl, used⟩, limit⟩, left⟩ := found
  obtain ⟨⟨d, stack⟩, used⟩ := Option.isSome_iff_exists.1 used
  obtain ⟨-, -, -, -, short⟩ := activation_bounded "session" library ⟨256, 7, 1000⟩ ∅ []
    (.start ["main"]) c ⟨1⟩ activated
  obtain ⟨-, -, -, short⟩ := short d stack used
  rw [limit] at short
  exact ⟨library, loaded, c, d, activated, short, left⟩

end Session

end Dialogue
