import Dialogue.Proofs.Evaluation
import Dialogue.Proofs.Session.Orphan
import Dialogue.Proofs.Session.Progress

/-!
# One act at a time

All that a session does in a turn is a sequence of acts. An instance begins, is changed, or ends; it
sends an event, assigns a variable, makes a call; a call is dropped. An act says exactly what it
adds to the notices, to the events that are produced and to the failures of the turn, so whatever
is counted along a run is counted act by act.

An act also says where it comes from. What an instance starts, sends or calls is written in its
program, and so is the reason for those errors that a flow without flaws does not meet: that it
starts a flow that does not exist, or that its time is up where it has nothing to do about it.

## Main definitions

* `CompiledFlow.Has` — what is written in a flow
* `FlowError.Explained` — an error has its reason in a flow
* `Cascade.Act`, `Cascade.Acts` — one act, and acts one after the other

## Main results

* `Cascade.acts_terminate`, `Cascade.acts_runStack`, `Cascade.acts_deliver` — what these do are acts
-/

namespace Dialogue

open Relation (ReflTransGen)

/-! ## What is written in a flow -/

/-- An instruction of a flow. -/
def CompiledFlow.Has (f : CompiledFlow) (instr : Instr) : Prop :=
  ∃ pc, f.program.get? pc = some instr

/-- There is nothing behind the last instruction but the end of the body. -/
theorem CompiledFlow.has_getD (f : CompiledFlow) (pc : Nat) :
    f.Has ((f.program.get? pc).getD .finish) ∨ (f.program.get? pc).getD .finish = .finish :=
  (f.get?_or_finish pc).imp_left fun h => ⟨pc, h⟩

/-- If an error can only come of a flaw in a flow, the flow has this flaw. -/
def FlowError.Explained (library : FlowLibrary) (f : CompiledFlow) : FlowError → Prop
  | .unknownFlow flow => library.get? flow = none ∧
    ∃ instr args, f.Has instr ∧ instr.Starts flow args
  | .timeoutUnhandled => ∃ s, f.Has (.select s) ∧ s.timeout.isSome ∧ s.onTimeout = none
  | _ => True

theorem FlowError.IsUnbound.explained {err : FlowError} (h : err.IsUnbound) (library : FlowLibrary)
    (f : CompiledFlow) : err.Explained library f := by
  cases h <;> trivial

/-- A live instance runs a flow. -/
def Session.Hosts (s : Session) (id : InstanceId) (f : CompiledFlow) : Prop :=
  ∃ i, s.instances.get? id = some i ∧ i.flow = f

namespace Cascade

variable {c c' c'' : Cascade} {id : InstanceId} {i : Instance}

/-! ## Acts -/

/-- What a session does at a time. -/
inductive Act (c : Cascade) : Cascade → Prop
  /-- An instance begins on its own. -/
  | launch {flow args id c'} (h : c.spawn flow args none false = some (id, c')) : Act c c'
  /-- An instance begins that another one starts. -/
  | start {p f instr flow exprs scope args isDetached id c'} (hosts : c.toSession.Hosts p f)
      (has : f.Has instr) (starts : instr.Starts flow exprs)
      (evaluated : Expr.evalArguments scope exprs = .ok args)
      (h : c.spawn flow args (some p) isDetached = some (id, c')) : Act c c'
  /-- An instance comes to the end of its body. -/
  | conclude {i : Instance} (live : c.instances.get? i.id = some i) (awake : i.wait? = none) :
      Act c (c.conclude i)
  /-- An instance is ended early. -/
  | abort {i : Instance} {error} (live : c.instances.get? i.id = some i)
      (cause : error.Explained c.library i.flow) : Act c (c.abort i.id error)
  /-- An instance is ended early, and that is reported as a failure. -/
  | fail {i : Instance} {error} (live : c.instances.get? i.id = some i)
      (cause : error.Explained c.library i.flow) :
      Act c (({ c with failures := c.failures.push ⟨i.id, i.flowName, error⟩ } : Cascade).abort
        i.id error)
  /-- A live instance is changed, and a timer may be armed or cancelled with that. -/
  | change {id i i'} (live : c.instances.get? id = some i) (flow : i'.flow = i.flow)
      (depth : i'.depth = i.depth) (timers : Timers) :
      Act c { c with instances := c.instances.insert id i', timers }
  /-- An instance sends an event. -/
  | send {p i event exprs} (live : c.instances.get? p = some i)
      (has : i.flow.Has (.send event exprs)) (params : Params) :
      Act c (c.produce (some (p, i.depth)) (Event.new event params))
  /-- A shared variable is assigned. -/
  | assign (context : Params) : Act c { c with context }
  /-- An instance makes a call. -/
  | call {p f instr action} (hosts : c.toSession.Hosts p f) (has : f.Has instr)
      (calls : instr.Calls action) (params : Params) :
      Act c (({ c with calls := (c.calls.start p action params).2 } : Cascade).notify
        (.actionDispatched (c.calls.start p action params).1 action p))
  /-- A call is dropped. -/
  | cancel (k : CallId) : Act c { c with calls := c.calls.cancel k }

/-- Acts, one after the other. -/
abbrev Acts : Cascade → Cascade → Prop := ReflTransGen Act

theorem library_abort (hi : c.instances.get? id = some i) (hid : i.id = id) (error : FlowError) :
    (c.abort id error).library = c.library :=
  (ends_abort hi hid error).library

theorem Act.library (h : c.Act c') : c'.library = c.library := by
  cases h with
  | launch h => exact (reports_spawn h).2.1
  | start _ _ _ _ h => exact (reports_spawn h).2.1
  | conclude live awake => exact (ends_conclude live rfl awake).library
  | abort live => exact library_abort live rfl _
  | @fail i error live =>
    let c₁ : Cascade := { c with failures := c.failures.push ⟨i.id, i.flowName, error⟩ }
    exact library_abort (c := c₁) live rfl _
  | _ => rfl

theorem Acts.library (h : Acts c c') : c'.library = c.library := by
  induction h with
  | refl => rfl
  | tail _ last ih => exact last.library.trans ih

/-! ## Ending instances -/

/-- An error has its reason in the flow of an instance, if that is live. -/
def Accounts (c : Cascade) (id : InstanceId) (error : FlowError) : Prop :=
  ∀ i, c.instances.get? id = some i → error.Explained c.library i.flow

theorem Accounts.of_survivors {error : FlowError} (h : c.Accounts id error)
    (sv : c.toSession.Survivors c'.toSession) (library : c'.library = c.library) :
    c'.Accounts id error := by
  intro i' hi'
  obtain ⟨i, hi, left⟩ := sv id i' hi'
  rw [library, left.flow]
  exact h i hi

/-- Ending instances that need no flaw for that. -/
theorem acts_foldl_abort (hs : c.toSession.Sound) {error : InstanceId → FlowError}
    (ids : List InstanceId) (cause : ∀ k, c.Accounts k (error k)) :
    Acts c (ids.foldl (fun c id => c.abort id (error id)) c) := by
  induction ids generalizing c with
  | nil => exact .refl
  | cons k rest ih =>
    have first : Acts c (c.abort k (error k)) := by
      cases hk : c.instances.get? k with
      | none =>
        have unchanged : c.abort k (error k) = c := by simp [Cascade.abort, hk]
        rw [unchanged]
      | some j =>
        obtain rfl := hs.id_eq hk
        exact .single (.abort hk (cause _ j hk))
    have removes := (removes_abort hs k (error k)).1
    refine first.trans (ih (removes.sound hs) fun k' => ?_)
    exact (cause k').of_survivors removes.survivors removes.library

/-- Ending an instance early, and what it has started. If it is reported, that is part of its own
end, which comes first. -/
theorem acts_terminate (hs : c.toSession.Sound) {root : InstanceId} {error : FlowError}
    (cause : c.Accounts root error) (isReported : Bool) :
    Acts c (c.terminate root error isReported) := by
  cases hi : c.instances.get? root with
  | none => rw [terminate_eq_self hi]
  | some i =>
    obtain rfl := hs.id_eq hi
    let c₁ : Cascade := { c with
      failures := if isReported then c.failures.push ⟨i.id, i.flowName, error⟩ else c.failures }
    let doomed := Instance.subtree (c.instances.erase i.id) i.children
    let reason (id : InstanceId) : FlowError :=
      if id = i.id then error else .parentTerminated i.label
    have terminate_eq : c.terminate i.id error isReported =
        doomed.foldl (fun c id => c.abort id (reason id)) (c₁.abort i.id error) := by
      simp only [terminate, hi, Instance.subtree_of_live hi, List.foldl_cons, if_true]
      rfl
    have first : Acts c (c₁.abort i.id error) := by
      cases isReported with
      | false => exact .single (.abort hi (cause i hi))
      | true => exact .single (.fail hi (cause i hi))
    have hs₁ : c₁.toSession.Sound := hs
    have removes := (removes_abort hs₁ i.id error).1
    rw [terminate_eq]
    refine first.trans (acts_foldl_abort (removes.sound hs₁) doomed fun k => ?_)
    -- The instance itself is gone, and the others go for its sake.
    by_cases hk : k = i.id
    · subst hk
      intro j hj
      rw [(removes_abort hs₁ i.id error).2] at hj
      cases hj
    · simp only [reason, hk, if_false]
      exact fun _ _ => trivial

theorem acts_terminateAll (hs : c.toSession.Sound) {error : FlowError} (ids : List InstanceId)
    (cause : ∀ k, c.Accounts k error) : Acts c (c.terminateAll ids error) := by
  induction ids generalizing c with
  | nil => exact .refl
  | cons k rest ih =>
    have first := acts_terminate hs (cause k) false
    refine first.trans (ih (Changes.sound (changes_terminate hs k error false) hs) fun k' => ?_)
    exact (cause k').of_survivors (survivors_terminate hs k error false) (Acts.library first)

theorem acts_complete (hs : c.toSession.Sound) (hi : c.instances.get? id = some i)
    (awake : i.wait? = none) : Acts c (c.complete id) := by
  obtain rfl := hs.id_eq hi
  rw [complete_eq hi rfl]
  have ended := ends_conclude hi rfl awake
  exact .head (.conclude hi awake)
    (acts_terminateAll (ended.sound hs) i.children fun _ _ _ => trivial)

/-! ## Instructions -/

/-- What an instruction of an instance does, and why it fails if it does. -/
structure Performs (i : Instance) {α : Type} (c c' : Cascade) (r : Except FlowError α) : Prop where
  acts : Acts c c'
  hosts : c'.toSession.Hosts i.id i.flow
  cause : ∀ e, r = .error e → e.Explained c.library i.flow

theorem get?_of_spawn_eq_none {flow args parent isDetached}
    (h : c.spawn flow args parent isDetached = none) : c.library.get? flow = none := by
  unfold spawn at h
  split at h
  · assumption
  · cases h

theorem hosts_of_spawn {flow args parent isDetached} {k : InstanceId} {f : CompiledFlow}
    (hs : c.toSession.Sound) (h : c.spawn flow args parent isDetached = some (id, c'))
    (hosts : c.toSession.Hosts k f) : c'.toSession.Hosts k f := by
  obtain ⟨j, hj, hf⟩ := hosts
  obtain ⟨compiled, depth, rfl, hget, -⟩ := get?_spawn h
  refine ⟨_, (hget k).trans (by rw [if_neg (Id.ne_next (hs.instances k j hj).begun), hj]; rfl), ?_⟩
  split <;> exact hf

/-- An instruction that fails at once because a variable has no value. -/
theorem performs_unbound {α : Type} {err : FlowError} (hosts : c.toSession.Hosts i.id i.flow)
    (failed : err.IsUnbound) : Performs (α := α) i c c (.error err) :=
  ⟨.refl, hosts, fun _ he => Except.error.inj he ▸ failed.explained _ _⟩

theorem Performs.error {α β : Type} {err : FlowError} (h : Performs (α := α) i c c' (.error err)) :
    Performs (α := β) i c c' (.error err) :=
  ⟨h.acts, h.hosts, fun _ he => Except.error.inj he ▸ h.cause err rfl⟩

theorem Performs.ok {α β : Type} {a : α} (h : Performs i c c' (.ok a)) (b : β) :
    Performs i c c' (.ok b) :=
  ⟨h.acts, h.hosts, nofun⟩

theorem Performs.trans {α β : Type} {a : α} {r : Except FlowError β} (h : Performs i c c' (.ok a))
    (h' : Performs i c' c'' r) : Performs i c c'' r :=
  ⟨h.acts.trans h'.acts, h'.hosts, fun e he => Acts.library h.acts ▸ h'.cause e he⟩

theorem performs_armLead {s : Select} {arm : Arm} {r : Except FlowError Armed}
    (hs : c.toSession.Sound) (hosts : c.toSession.Hosts i.id i.flow)
    (has : i.flow.Has (.select s)) (mem : arm ∈ s.arms) (h : c.armLead i arm.lead = (c', r)) :
    Performs i c c' r := by
  generalize here : arm.lead = lead at h
  cases startsLead_armLead h with
  | event => exact ⟨.refl, hosts, nofun⟩
  | unbound failed => exact performs_unbound hosts failed
  | missing _ missing =>
    refine ⟨.refl, hosts, fun e he => ?_⟩
    obtain rfl := Except.error.inj he
    exact ⟨get?_of_spawn_eq_none missing, _, _, has, .arm mem here⟩
  | child evaluated spawned =>
    exact ⟨.single (.start hosts has (.arm mem here) evaluated spawned),
      hosts_of_spawn hs spawned hosts, nofun⟩
  | @call _ _ _ values => exact ⟨.single (.call hosts has (.arm mem here) values), hosts, nofun⟩

/-- Starting the leads of arms of a `select`, from left to right. -/
theorem performs_armAll {s : Select} {arms : List Arm} {r : Except FlowError (List Armed)}
    (hs : c.toSession.Sound) (hosts : c.toSession.Hosts i.id i.flow)
    (has : i.flow.Has (.select s)) (sub : ∀ arm ∈ arms, arm ∈ s.arms)
    (h : c.armAll i arms = (c', r)) : Performs i c c' r := by
  induction arms generalizing c r with
  | nil =>
    cases startsLeads_armAll h with
    | nil => exact ⟨.refl, hosts, nofun⟩
  | cons arm rest ih =>
    have mem := sub arm List.mem_cons_self
    -- A lead that has started leaves the instance live, so the others are started from there.
    have further {c₁ : Cascade} {a : Armed} {r : Except FlowError (List Armed)}
        (first : c.armLead i arm.lead = (c₁, .ok a)) (others : c₁.armAll i rest = (c', r)) :
        Performs i c c' r := by
      have performs := performs_armLead hs hosts has mem first
      have live : (c.instances.get? i.id).isSome := by
        obtain ⟨j, hj, -⟩ := hosts
        rw [hj]
        rfl
      have hs₁ : c₁.toSession.Sound := Changes.sound (armLead_ok hs live first).1 hs
      exact performs.trans
        (ih hs₁ performs.hosts (fun a ha => sub a (List.mem_cons_of_mem _ ha)) others)
    cases startsLeads_armAll h with
    | fail failed => exact (performs_armLead hs hosts has mem failed).error
    | stall first others => exact (further first others).error
    | cons first others => exact (further first others).ok _

/-- A live instance is changed. -/
theorem performs_change {α : Type} (hosts : c.toSession.Hosts i.id i.flow)
    (f : Instance → Instance) (flow : ∀ j, (f j).flow = j.flow) (depth : ∀ j, (f j).depth = j.depth)
    (timers : Timers) (a : α) :
    Performs i c (({ c with timers } : Cascade).change i.id f) (.ok a) := by
  obtain ⟨j, hj, hf⟩ := hosts
  let c₁ : Cascade := { c with timers }
  rw [change_eq (c := c₁) hj]
  exact ⟨.single (.change hj (flow j) (depth j) timers),
    ⟨f j, Table.get?_insert_self .., (flow j).trans hf⟩, nofun⟩

theorem performs_goto (hosts : c.toSession.Hosts i.id i.flow) (pc : Nat) :
    Performs i c (c.goto i.id pc) (.ok ()) :=
  performs_change hosts (fun i => { i with pc }) (fun _ => rfl) (fun _ => rfl) c.timers ()

theorem performs_suspended (hosts : c.toSession.Hosts i.id i.flow) (arms : List Armed)
    (deadline : Option Instant) : Performs i c (c.suspended i arms deadline) (.ok ()) := by
  obtain ⟨timer, timers, eq⟩ := exists_suspended_eq c i arms deadline
  rw [eq]
  exact performs_change hosts _ (by intro; rfl) (by intro; rfl) timers ()

/-- Whatever is not the end of the body leaves the instance live. -/
theorem performs_execute {instr : Instr} {r : Except FlowError (List InstanceId)}
    (hs : c.toSession.Sound) (hi : c.instances.get? i.id = some i) (hr : i.phase = .running)
    (has : i.flow.Has instr ∨ instr = .finish) (h : c.execute i instr = (c', r)) :
    instr = .finish ∨ Performs i c c' r := by
  have hosts : c.toSession.Hosts i.id i.flow := ⟨i, hi, rfl⟩
  -- Only the last instruction of a body is not one that the flow has written.
  cases carriesOut_execute h with
  | finish => exact .inl rfl
  | unbound failed => exact .inr (performs_unbound hosts failed)
  | beyond | abort => exact .inr ⟨.refl, hosts, fun _ he => Except.error.inj he ▸ trivial⟩
  | stall failed =>
    have has := has.resolve_right (by simp)
    exact .inr (performs_armAll hs hosts has (fun _ h => h) failed).error
  | suspend _ armed =>
    have has := has.resolve_right (by simp)
    have started := performs_armAll hs hosts has (fun _ h => h) armed
    exact .inr ((started.trans (performs_suspended started.hosts _ _)).ok _)
  | @send event _ values =>
    have has := has.resolve_right (by simp)
    let c₁ := c.produce (some (i.id, i.depth)) (Event.new event values)
    -- What the instruction does comes first, and then the instance goes on behind it.
    have moved := performs_goto (c := c₁) hosts (i.pc + 1)
    exact .inr ⟨.head (.send hi has values) moved.acts, moved.hosts, nofun⟩
  | missing _ missing =>
    have has := has.resolve_right (by simp)
    have moved := performs_goto hosts (i.pc + 1)
    refine .inr ⟨moved.acts, moved.hosts, fun e he => ?_⟩
    obtain rfl := Except.error.inj he
    rw [FlowError.Explained, ← Acts.library moved.acts]
    exact ⟨get?_of_spawn_eq_none missing, _, _, has, .start ..⟩
  | start evaluated spawned =>
    have has := has.resolve_right (by simp)
    have moved := performs_goto hosts (i.pc + 1)
    have hs₁ : (c.goto i.id (i.pc + 1)).toSession.Sound :=
      Changes.sound (goesOn_goto hi hr (i.pc + 1)).changes hs
    exact .inr ⟨moved.acts.tail (.start moved.hosts has (.start ..) evaluated spawned),
      hosts_of_spawn hs₁ spawned moved.hosts, nofun⟩
  | @share var _ v =>
    let c₁ : Cascade := { c with context := c.context.insert var v }
    have moved := performs_goto (c := c₁) hosts (i.pc + 1)
    exact .inr ⟨.head (.assign _) moved.acts, moved.hosts, nofun⟩
  | @bind var _ v =>
    have bound := performs_change hosts
      (fun i => { i with locals := i.locals.insert var v }) (fun _ => rfl) (fun _ => rfl)
      c.timers ()
    exact .inr ((bound.trans (performs_goto bound.hosts (i.pc + 1))).ok _)
  | branch | jump => exact .inr ((performs_goto hosts _).ok _)

/-! ## Activations -/

/-- An instruction that fails leaves the instance live, and the error has its reason in its flow. -/
theorem performs_error {e : FlowError} (hs : c.toSession.Sound)
    (hi : c.instances.get? i.id = some i) (hr : i.phase = .running)
    (h : c.execute i ((i.flow.program.get? i.pc).getD .finish) = (c', .error e)) :
    Performs (α := List InstanceId) i c c' (.error e) := by
  rcases performs_execute hs hi hr (i.flow.has_getD _) h with finish | performs
  · rw [finish] at h
    cases h
  · exact performs

theorem Performs.accounts {α : Type} {e : FlowError} (h : Performs (α := α) i c c' (.error e)) :
    c'.Accounts i.id e := by
  intro j hj
  obtain ⟨j', hj', flow⟩ := h.hosts
  obtain rfl := Option.some.inj (hj.symm.trans hj')
  rw [flow, Acts.library h.acts]
  exact h.cause e rfl

theorem acts_step (hs : c.toSession.Sound) (hi : c.instances.get? i.id = some i)
    (hr : i.phase = .running) : Acts c (c.step i).1 := by
  unfold step
  split
  · next executed =>
    rcases performs_execute hs hi hr (i.flow.has_getD _) executed with finish | performs
    · rw [finish] at executed
      obtain ⟨rfl, -⟩ := Prod.mk.inj executed
      exact acts_complete hs hi (Instance.wait?_of_running hr)
    · exact performs.acts
  · next c₁ e executed =>
    have performs := performs_error hs hi hr executed
    have hs₁ := Changes.sound (execute_error hs hi hr executed).changes hs
    exact performs.acts.trans (acts_terminate hs₁ performs.accounts true)

theorem acts_foldl_endRunning (hs : c.toSession.Sound) (limit : Nat) (ids : List InstanceId) :
    Acts c (ids.foldl (endRunning (.stepLimit limit)) c) := by
  induction ids generalizing c with
  | nil => exact .refl
  | cons id rest ih =>
    have first : Acts c (c.endRunning (.stepLimit limit) id) := by
      unfold endRunning
      split
      · split
        · exact .refl
        · exact acts_terminate hs (by intro _ _; trivial) false
      · exact .refl
    exact first.trans (ih (Changes.sound (changes_endRunning hs _ id) hs))

theorem acts_exhaust (hs : c.toSession.Sound) (root : InstanceId) (stack : List InstanceId) :
    Acts c (c.exhaust root stack) := by
  rw [exhaust_eq]
  have first : Acts c (c.terminate root (.stepLimit c.limits.activationSteps) true) :=
    acts_terminate hs (by intro _ _; trivial) true
  have ended := changes_terminate hs root (.stepLimit c.limits.activationSteps) true
  have hs₁ := Changes.sound ended hs
  exact first.trans (acts_foldl_endRunning hs₁ _ _)

theorem acts_runStack (root : InstanceId) : ∀ (budget : Nat) (stack : List InstanceId)
    {c : Cascade}, c.toSession.Sound → Acts c (runStack root budget stack c)
  | budget, stack, c, hs => by
    unfold runStack
    cases h : c.firstRunning? stack with
    | none => exact .refl
    | some first =>
      obtain ⟨i, rest⟩ := first
      cases budget with
      | zero => exact acts_exhaust hs root _
      | succ budget =>
        obtain ⟨id, hi, hr, -⟩ := firstRunning?_eq_some h
        have live := (hs.id_eq hi).symm ▸ hi
        exact (acts_step hs live hr).trans
          (acts_runStack root budget _ ((path_step hs live hr).sound hs))

theorem acts_activate (hs : c.toSession.Sound) (id : InstanceId) : Acts c (c.activate id) :=
  acts_runStack id _ _ hs

/-! ## Deliveries -/

theorem explained_of_checkBindings {locals bindings : Params} {isParameter : String → Bool}
    {err : FlowError} (h : checkBindings locals bindings isParameter = .error err)
    (library : FlowLibrary) (f : CompiledFlow) : err.Explained library f := by
  unfold checkBindings at h
  split at h
  · next found =>
    obtain rfl := Except.error.inj h
    obtain ⟨b, -, conflict⟩ := List.exists_of_findSome?_eq_some found
    unfold conflict? at conflict
    split at conflict
    · split at conflict
      · split at conflict
        · obtain rfl := Option.some.inj conflict
          trivial
        · cases conflict
      · cases conflict
    · cases conflict
  · cases h

/-- Unless time is up, a resolution fails for want of a handler, or because of what it binds. -/
theorem explained_of_failure? {i : Instance} {r : Resolution} {err : FlowError}
    (early : r ≠ .timeout none) (failed : i.failure? r = some err) (library : FlowLibrary)
    (f : CompiledFlow) : err.Explained library f := by
  unfold Instance.failure? at failed
  split at failed
  · split at failed
    · next conflict =>
      obtain rfl := Option.some.inj failed
      exact explained_of_checkBindings conflict library f
    · cases failed
  · split at failed
    · cases failed
    · obtain rfl := Option.some.inj failed
      trivial
  · cases failed
  · exact absurd rfl early

theorem acts_giveUpAll (kept : Option Nat) : ∀ (index : Nat) (arms : List Armed) {c : Cascade},
    c.toSession.Sound → Owns id arms c → Acts c (c.giveUpAll kept index arms)
  | _, [], _, _, _ => .refl
  | index, a :: rest, c, hs, owns => by
    have single : Owns id [a] c := owns.changes .refl (by simp)
    have first : Acts c (if kept = some index then c else c.giveUp a) ∧
        Changes c (if kept = some index then c else c.giveUp a) := by
      split
      · exact ⟨.refl, .refl⟩
      · refine ⟨?_, (giveUp_spec hs single).1⟩
        cases a with
        | event => exact .refl
        | child k => exact acts_terminate hs (by intro _ _; trivial) false
        | call k => exact .single (.cancel k)
    exact first.1.trans (acts_giveUpAll kept (index + 1) rest (Changes.sound first.2 hs)
      (owns.changes first.2 fun b hb => List.mem_cons_of_mem a hb))

theorem acts_disarm {w : Wait} (hs : c.toSession.Sound) (hi : c.instances.get? id = some i)
    (hw : i.wait? = some w) (kept : Option Nat) : Acts c (c.disarm i kept) := by
  obtain rfl := hs.id_eq hi
  rw [disarm_eq hi hw]
  have woken : Act c (c.awaken i w) :=
    .change hi (rfl : ({ i with phase := .running } : Instance).flow = i.flow) rfl _
  exact .head woken
    (acts_giveUpAll kept 0 w.arms ((wakes_awaken hi hw).sound hs) (owns_awaken hs hi hw))

theorem acts_advance (hs : c.toSession.Sound) (hw : c.toSession.waitOf? id = none) (pc : Nat)
    (bindings : Params) : Acts c (c.advance id pc bindings) := by
  rw [advance_eq]
  have moved : Acts c (c.relocate id pc bindings) := by
    cases hi : c.instances.get? id with
    | none => rw [relocate, change, Table.modify_eq_self hi]
    | some i =>
      rw [relocate, change_eq hi]
      exact .single (.change hi (by rfl) (by rfl) c.timers)
  have hs₁ := Changes.sound (goesOn_relocate hs hw pc bindings).changes hs
  exact moved.trans (acts_activate hs₁ id)

/-- If time is up for an instance that has nothing to do about it, that is how its flow is
written. -/
def Admits (c : Cascade) (id : InstanceId) (r : Resolution) : Prop :=
  r = .timeout none → c.Accounts id .timeoutUnhandled

theorem Admits.of_path {ms : List Moment} {r : Resolution} (h : c.Admits id r)
    (begun : id.number ≤ c.created) (path : Path Change c ms c') : c'.Admits id r := by
  have path := path.mono (S := Passes) fun _ _ => .change
  intro hr i' hi'
  obtain ⟨i, hi, -, -, -, flow⟩ := path.passes_later.instances id i' begun hi'
  rw [path.passes_library, flow]
  exact h hr i hi

/-- What comes of a resolution. -/
theorem acts_resume (hs : c.toSession.Sound) {r : Resolution} (admits : c.Admits id r) :
    Acts c (c.resume id r) := by
  have resumed := resumes c id r
  generalize c.resume id r = c', c.resumeHistory id r = ms at resumed
  cases resumed with
  | stays => exact .refl
  | @ends i w r error hi hw early failed =>
    exact acts_terminate hs (fun _ _ => explained_of_failure? early failed _ _) true
  | @advances i w r pc bindings hi hw =>
    have d := disarms hs hi hw r.kept?
    exact (acts_disarm hs hi hw r.kept?).trans (acts_advance (d.sound hs) d.awake pc bindings)
  | fails hi hw =>
    have d := disarms hs hi hw none
    refine (acts_disarm hs hi hw none).trans (acts_terminate (d.sound hs) ?_ true)
    -- Ending the wait takes nothing away from what has been found at the delivery.
    exact admits.of_path (hs.instances id _ hi).begun (d.path none) rfl

end Cascade

/-! ### Why resolutions fail -/

section Candidates

variable {e : Event} {id : InstanceId} {scope : Scope} {err : FlowError}

theorem Instance.isUnbound_of_candidate? {i : Instance} (h : i.candidate? e scope = .error err) :
    err.IsUnbound := by
  obtain ⟨w, s, -, -, ⟨-, late⟩ | ⟨n, arm, a, -, -, asked⟩⟩ := exists_of_candidate? h nofun
  · cases late
  · cases Arm.makes_candidate? asked with
    | unbound failed => exact failed

/-- If time is up, the instance waits with a timer, and it goes on where its `select` says. -/
theorem Instance.timer_of_candidate? {i : Instance} {handler : Option Nat}
    (h : i.candidate? e scope = .ok (some (.addressed (.timeout handler)))) :
    ∃ w s, i.wait? = some w ∧ i.select? = some s ∧ w.timer.isSome ∧ s.onTimeout = handler := by
  obtain ⟨w, s, hw, hsel, ⟨timed, late⟩ | ⟨n, arm, a, -, -, asked⟩⟩ :=
    exists_of_candidate? h nofun
  · cases late
    exact ⟨w, s, hw, hsel, timed, rfl⟩
  · cases Arm.makes_candidate? asked

end Candidates

namespace Cascade

variable {c c' : Cascade} {id : InstanceId} {e : Event}

/-- If an event ends a wait because time is up, the `select` has a timeout. -/
theorem admits_of_mem_consumers (hs : c.toSession.Sound) {r : Resolution}
    (h : (id, r) ∈ c.consumers e) : c.Admits id r := by
  rintro rfl i hi
  rcases (mem_consumers_iff hs).1 h with addressed | ⟨claim, -, -, arm_eq⟩
  · obtain ⟨i', hi', -, asked⟩ := (mem_candidates_iff hs).1 addressed
    obtain rfl := Option.some.inj (hi.symm.trans hi')
    obtain ⟨w, s, hw, hsel, timed, unhandled⟩ := Instance.timer_of_candidate? asked
    obtain ⟨s', hs', -, timer⟩ := (hs.wait hi hw).fits.select
    have place : i.flow.program.get? w.select = some (.select s') :=
      (hs.wait hi hw).fits.place ▸ hs'
    obtain rfl : s' = s := by simpa [Instance.select?, hw, place] using hsel
    exact ⟨s', ⟨_, hs'⟩, timer.1 timed, unhandled⟩
  · cases arm_eq

theorem acts_purge (hs : c.toSession.Sound) (e : Event) : Acts c (c.purge e) := by
  have reasons : ∀ b ∈ c.broken e, b.2.IsUnbound := by
    intro b hb
    obtain ⟨i, -, failed⟩ := (mem_broken_iff hs).1 hb
    exact Instance.isUnbound_of_candidate? failed
  unfold purge
  generalize c.broken e = bs at reasons
  induction bs generalizing c with
  | nil => exact .refl
  | cons b rest ih =>
    have first : Acts c (c.terminate b.1 b.2 true) :=
      acts_terminate hs (fun _ _ => (reasons b List.mem_cons_self).explained _ _) true
    exact first.trans (ih (Changes.sound (changes_terminate hs b.1 b.2 true) hs)
      fun b' hb' => reasons b' (List.mem_cons_of_mem _ hb'))

/-- The same for resolutions of several instances, all of which have begun. -/
def AdmitsAll (c : Cascade) (rs : List (InstanceId × Resolution)) : Prop :=
  ∀ r ∈ rs, r.1.number ≤ c.created ∧ c.Admits r.1 r.2

theorem AdmitsAll.of_path {rs : List (InstanceId × Resolution)} {ms : List Moment}
    (h : c.AdmitsAll rs) (path : Path Change c ms c') : c'.AdmitsAll rs := by
  intro r hr
  obtain ⟨begun, admits⟩ := h r hr
  have later := (path.mono (S := Passes) fun _ _ => .change).passes_later
  exact ⟨Nat.le_trans begun later.created, admits.of_path begun path⟩

theorem admitsAll_consumers (hs : c.toSession.Sound) (e : Event) :
    (c.purge e).AdmitsAll (c.consumers e) := by
  have admits : c.AdmitsAll (c.consumers e) := by
    intro r hr
    obtain ⟨w, hw⟩ := waits_of_mem_consumers hs hr
    obtain ⟨i, hi, -⟩ := Option.bind_eq_some_iff.1 hw
    exact ⟨(hs.instances r.1 i hi).begun, admits_of_mem_consumers hs hr⟩
  exact admits.of_path (.of_changes (changes_purge hs e))

theorem acts_foldl_resume (hs : c.toSession.Sound) (rs : List (InstanceId × Resolution))
    (admits : c.AdmitsAll rs) : Acts c (rs.foldl (fun c r => c.resume r.1 r.2) c) := by
  induction rs generalizing c with
  | nil => exact .refl
  | cons r rest ih =>
    obtain ⟨⟨-, first⟩, others⟩ := List.forall_mem_cons.1 admits
    have path := path_resume hs r.1 r.2
    exact (acts_resume hs first).trans (ih (path.sound hs) (AdmitsAll.of_path others path))

theorem acts_deliver (hs : c.toSession.Sound) (e : Event) : Acts c (c.deliver e) := by
  rw [deliver_eq]
  exact (acts_purge hs e).trans (acts_foldl_resume (Changes.sound (changes_purge hs e) hs) _
    (admitsAll_consumers hs e))

/-! ## Launches -/

theorem acts_launch {flow : String} {args : Params} (hs : c.toSession.Sound)
    (h : c.launch flow args = some (id, c')) : Acts c c' := by
  obtain ⟨⟨k, d⟩, spawned, heq⟩ := Option.map_eq_some_iff.1 h
  obtain ⟨rfl, rfl⟩ := Prod.mk.inj heq
  exact .head (.launch spawned) (acts_activate (sound_of_spawn spawned hs) k)

theorem acts_launchAll : ∀ {flows : List String} {c c' : Cascade}, c.toSession.Sound →
    launchAll flows c = .ok c' → Acts c c'
  | [], c, c', _, h => by
    obtain rfl := Except.ok.inj h
    exact .refl
  | flow :: rest, c, c', hs, h => by
    unfold launchAll at h
    split at h
    · cases h
    · next launched =>
      exact (acts_launch hs launched).trans
        (acts_launchAll ((path_launch hs launched).sound hs) h)

theorem get?_of_launch_eq_none {flow : String} {args : Params}
    (h : c.launch flow args = none) : c.library.get? flow = none :=
  get?_of_spawn_eq_none (Option.map_eq_none_iff.1 h)

/-- Flows that are known can be launched. -/
theorem exists_launchAll : ∀ {flows : List String} {c : Cascade}, c.toSession.Sound →
    (∀ flow ∈ flows, c.library.contains flow = true) → ∃ c', launchAll flows c = .ok c'
  | [], c, _, _ => ⟨c, rfl⟩
  | flow :: rest, c, hs, known => by
    obtain ⟨first, others⟩ := List.forall_mem_cons.1 known
    unfold launchAll
    split
    · next refused =>
      have unknown : c.library.flows.get? flow = none := get?_of_launch_eq_none refused
      simp [FlowLibrary.contains, Table.contains, unknown] at first
    · next launched =>
      have path := path_launch hs launched
      have same := (path.mono (S := Passes) fun _ _ => .change).passes_library
      exact exists_launchAll (path.sound hs) (same ▸ others)

end Cascade

/-- If all flows are known, none of the launches is refused. -/
theorem Session.exists_start {s : Session} (hs : s.Sound) (isOpen : s.checkOpen = .ok ())
    {flows : List String} (known : (flows.find? fun flow => !s.library.contains flow) = none) :
    ∃ c, s.openCascade.launchAll flows = .ok c ∧
      s.start flows = .ok (c.notify (.sessionOpened flows)).run := by
  have contained : ∀ flow ∈ flows, s.library.contains flow = true := by
    simpa using List.find?_eq_none.1 known
  obtain ⟨c, launched⟩ := Cascade.exists_launchAll (c := s.openCascade) hs contained
  exact ⟨c, launched, start_of_launchAll isOpen known launched⟩

end Dialogue
