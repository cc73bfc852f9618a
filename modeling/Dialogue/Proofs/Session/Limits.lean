import Dialogue.Proofs.Session.Agreement
import Dialogue.Proofs.Session.Exhaustion

/-!
# Limits matter only when they are met

A session has bounds so that its flows do not run for ever. They are consulted in two places only,
where an activation has used up its instructions and where a turn has delivered as many events as it
may, and in both places it is told that a limit has been met. So a run that meets no limit is the
same as one that is allowed more, whatever is remembered of those who have ended.

## Main definitions

* `Limits.AtMost` — bounds that allow no more than others
* `Cascade.Follows` — agreement, unless an activation has used up its budget
* `Response`, `Session.respond` — what comes of an operation
* `Session.responsesOf` — what comes of a run, whose operations have their instants

## Main results

* `Cascade.follows_runStack`, `Cascade.follows_drain` — more budget makes no difference, unless a
  limit is met
* `Session.matches_respond` — an operation gets the same response, unless it meets a limit
* `Session.limits_matter_only_when_met`
-/

namespace Dialogue

/-- Bounds allow at most as much as others, whatever they say of what is remembered. -/
structure Limits.AtMost (l l' : Limits) : Prop where
  cascadeSteps : l.cascadeSteps ≤ l'.cascadeSteps
  activationSteps : l.activationSteps ≤ l'.activationSteps

namespace Cascade

variable {l : Limits} {c c' d d' : Cascade} {id root : InstanceId}

/-! ## Running alike -/

/-- A cascade is in order, and its bounds allow at most as much as others. -/
structure Within (l : Limits) (c : Cascade) : Prop where
  orderly : c.toSession.Orderly
  bound : c.limits.AtMost l

theorem Within.passes {ms : List Moment} (h : c.Within l) (path : Path Passes c ms c') :
    c'.Within l where
  orderly := path.passes_orderly h.orderly
  bound := path.passes_limits.symm ▸ h.bound

theorem Within.path {ms : List Moment} (h : c.Within l) (path : Path Change c ms c') :
    c'.Within l :=
  h.passes (path.mono fun _ _ => .change)

theorem Within.changes (h : c.Within l) (changes : Changes c c') : c'.Within l :=
  h.path (.of_changes changes)

/-- The second cascade agrees with the first one, unless an activation of the first one has used up
its budget. -/
def Follows (l : Limits) (c d : Cascade) : Prop := c.IsExhausted ∨ c.Agrees l d

/-- What follows still does after something that is done alike. -/
theorem Follows.bind (h : c.Follows l d) (acts : Acts c c')
    (next : c.Agrees l d → c'.Follows l d') : c'.Follows l d' :=
  h.elim (fun exhausted => .inl (exhausted.acts acts)) next

theorem follows_runStack : ∀ (budget budget' : Nat) {stack : List InstanceId} {c d : Cascade},
    budget ≤ budget' → c.Within l → Anchored root stack c → c.Agrees l d →
      (runStack root budget stack c).Follows l (runStack root budget' stack d)
  | budget, budget', stack, c, d, le, within, anchored, h => by
    have hs := within.orderly.sound
    unfold runStack
    rw [h.firstRunning?]
    cases first : c.firstRunning? stack with
    | none => exact .inr h
    | some runs =>
      obtain ⟨i, rest⟩ := runs
      obtain ⟨hi, hr, sub⟩ := suffix_of_firstRunning? hs first
      obtain ⟨rooted, live⟩ := anchored.of_firstRunning? (by rw [hi]; rfl) sub
      cases budget with
      | zero => exact .inl (isExhausted_exhaust hs live _)
      | succ budget =>
        -- The larger budget is not used up before the smaller one.
        obtain ⟨budget', rfl⟩ : ∃ n, budget' = n + 1 := ⟨budget' - 1, by omega⟩
        have path := path_step hs hi hr
        have anchored := Anchored.step hs within.orderly.kinship hi hr rooted live
        have stepped := h.step i
        dsimp only
        generalize d.step i = q at stepped
        generalize c.step i = p at stepped path anchored
        obtain ⟨h₁, children⟩ := stepped
        exact follows_runStack budget budget' (Nat.le_of_succ_le_succ le) (within.path path)
          anchored h₁

theorem follows_activate (within : c.Within l) (h : c.Agrees l d) (id : InstanceId) :
    (c.activate id).Follows l (d.activate id) := by
  unfold activate
  rw [h.limits]
  exact follows_runStack _ _ within.bound.activationSteps within ⟨.bottom, .inl rfl⟩ h

theorem follows_advance (within : c.Within l) (awake : c.toSession.waitOf? id = none)
    (h : c.Agrees l d) (pc : Nat) (bindings : Params) :
    (c.advance id pc bindings).Follows l (d.advance id pc bindings) := by
  have moved := (goesOn_relocate within.orderly.sound awake pc bindings).changes
  exact follows_activate (within.changes moved) (h.change id _) id

theorem follows_resume (within : c.Within l) (h : c.Agrees l d) (id : InstanceId)
    (r : Resolution) : (c.resume id r).Follows l (d.resume id r) := by
  have hs := within.orderly.sound
  unfold resume
  rw [h.instances]
  cases hi : c.instances.get? id with
  | none => exact .inr h
  | some i =>
    cases hw : i.wait? with
    | none =>
      simp only [Instance.isWaiting, hw, Option.isSome_none, Bool.not_false, if_true]
      exact .inr h
    | some w =>
      simp only [Instance.isWaiting, hw, Option.isSome_some, Bool.not_true, Bool.false_eq_true,
        if_false]
      -- Whoever goes on has left the wait first.
      have goes (kept : Option Nat) (pc : Nat) (bindings : Params) :
          ((c.disarm i kept).advance id pc bindings).Follows l
            ((d.disarm i kept).advance id pc bindings) := by
        have disarmed := disarms hs hi hw kept
        have woken : (c.disarm i kept).Within l := within.path (disarmed.path none)
        exact follows_advance woken disarmed.awake (h.disarm i kept) pc bindings
      cases r with
      | arm index arm bindings =>
        dsimp only
        split
        · exact .inr (h.terminate id _ true)
        · exact goes _ _ _
      | failure index arm reason =>
        dsimp only
        split
        · exact goes _ _ _
        · exact .inr (h.terminate id _ true)
      | timeout handler =>
        cases handler with
        | some handler => exact goes _ _ _
        | none => exact .inr ((h.disarm i none).terminate id _ true)

theorem follows_foldl_resume (rs : List (InstanceId × Resolution)) (within : c.Within l)
    (admits : c.AdmitsAll rs) (h : c.Agrees l d) :
    (rs.foldl (fun c r => c.resume r.1 r.2) c).Follows l
      (rs.foldl (fun c r => c.resume r.1 r.2) d) := by
  induction rs generalizing c d with
  | nil => exact .inr h
  | cons r rest ih =>
    have path := path_resume within.orderly.sound r.1 r.2
    have within₁ := within.path path
    have admits₁ := AdmitsAll.of_path (List.forall_mem_cons.1 admits).2 path
    have others := acts_foldl_resume within₁.orderly.sound rest admits₁
    exact (follows_resume within h r.1 r.2).bind others (ih within₁ admits₁)

theorem follows_deliver (within : c.Within l) (h : c.Agrees l d) (e : Event) :
    (c.deliver e).Follows l (d.deliver e) := by
  have hs := within.orderly.sound
  rw [deliver_eq, deliver_eq, h.consumers]
  exact follows_foldl_resume _ (within.changes (changes_purge hs e)) (admitsAll_consumers hs e)
    (h.purge e)

/-! ## Turns -/

theorem IsExhausted.settle (h : c.IsExhausted) : c.settle.IsExhausted := by
  obtain ⟨f, hf, limit⟩ := h
  exact ⟨f, (quiet_settle c).1.failures.symm ▸ hf, limit⟩

theorem Follows.settle (h : c.Follows l d) : c.settle.Follows l d.settle :=
  h.imp IsExhausted.settle Agrees.settle

theorem IsExhausted.drain (h : c.IsExhausted) (ready : c.Ready) (budget : Nat) :
    (drain budget c).IsExhausted := by
  obtain ⟨f, hf, limit⟩ := h
  obtain ⟨⟨ns, fs, tells, -⟩, -⟩ := drain_tells budget ready
  refine ⟨f, ?_, limit⟩
  rw [← Array.mem_toList_iff, tells.failures]
  exact List.mem_append_left _ (Array.mem_toList_iff.2 hf)

/-- A turn that is not broken off goes on alike if it may deliver more events. -/
theorem follows_drain : ∀ (budget budget' : Nat) {c d : Cascade}, budget ≤ budget' → c.Ready →
    c.limits.AtMost l → c.Agrees l d →
      (drain budget c).fault.isSome ∨ (drain budget c).Follows l (drain budget' d)
  | budget, budget', c, d, le, ready, bound, h => by
    unfold drain
    rw [h.queue]
    cases hq : c.queue with
    | nil => exact .inr (.inr h)
    | cons e rest =>
      cases budget with
      | zero => exact .inl rfl
      | succ budget =>
        obtain ⟨budget', rfl⟩ : ∃ n, budget' = n + 1 := ⟨budget' - 1, by omega⟩
        let c₁ : Cascade := { c with queue := rest }
        have within : c₁.Within l := ⟨ready.orderly, bound⟩
        have delivered := (ready.pop rest).deliver e
        have path := path_deliver (c := c₁) ready.orderly.sound e
        -- A delivery that uses up the budget of an activation is reported, and stays reported.
        rcases (follows_deliver within (h.setQueue rest) e).settle with exhausted | agrees
        · exact .inr (.inl (exhausted.drain delivered budget))
        · refine follows_drain budget budget' (Nat.le_of_succ_le_succ le) delivered ?_ agrees
          rw [(aside_settle _).limits]
          exact (within.path path).bound

/-! ## Launches -/

theorem follows_launch {flow : String} {args : Params} (within : c.Within l) (h : c.Agrees l d)
    (hc : c.launch flow args = some (id, c')) :
    ∃ d', d.launch flow args = some (id, d') ∧ c'.Follows l d' := by
  obtain ⟨⟨k, c₁⟩, spawned, heq⟩ := Option.map_eq_some_iff.1 hc
  obtain ⟨rfl, rfl⟩ := Prod.mk.inj heq
  obtain ⟨d₁, spawned', h₁⟩ := h.exists_spawn spawned
  have begun : c.Change c₁ := .begin spawned fun p hp => by cases hp
  refine ⟨d₁.activate k, ?_, follows_activate (within.changes (.single begun)) h₁ k⟩
  rw [launch, spawned']
  rfl

theorem launch_eq_none {flow : String} {args : Params} (h : c.Agrees l d)
    (hc : c.launch flow args = none) : d.launch flow args = none := by
  rw [launch, h.spawn_eq_none (Option.map_eq_none_iff.1 hc)]
  rfl

theorem follows_launchAll : ∀ {flows : List String} {c c' d : Cascade}, c.Within l →
    c.Agrees l d → launchAll flows c = .ok c' →
      c'.IsExhausted ∨ ∃ d', launchAll flows d = .ok d' ∧ c'.Agrees l d'
  | [], c, c', d, _, h, hc => by
    obtain rfl := Except.ok.inj hc
    exact .inr ⟨d, rfl, h⟩
  | flow :: rest, c, c', d, within, h, hc => by
    unfold launchAll at hc ⊢
    split at hc
    · cases hc
    · next id c₁ launched =>
      have within₁ := within.path (path_launch within.orderly.sound launched)
      obtain ⟨d₁, launched', follows⟩ := follows_launch within h launched
      rw [launched']
      rcases follows with exhausted | agrees
      · exact .inl (exhausted.acts (acts_launchAll within₁.orderly.sound hc))
      · exact follows_launchAll within₁ agrees hc

end Cascade

/-! ## What comes of operations -/

/-- What comes of an operation that is not refused. -/
inductive Response where
  | turn (t : Turn)
  | started (id : InstanceId) (t : Turn)
  | requests (rs : List ActionRequest)
  | notices (ns : List Notice)
  | closed
  | elapsed

/-- The turn that has been taken. -/
def Response.turn? : Response → Option Turn
  | turn t | started _ t => some t
  | _ => none

/-- Whether a limit was met in a turn: the turn was broken off, or it reports an activation that
was. -/
def Turn.meetsLimit (t : Turn) : Bool :=
  t.fault.isSome || t.failures.any fun f => f.error.isStepLimit

/-- Whether a limit was met. -/
def Response.meetsLimit (r : Response) : Bool := r.turn?.any Turn.meetsLimit

namespace Session

variable {s s' : Session} {l : Limits}

/-- What comes of an operation, and the session after it. -/
def respond (s : Session) : Operation → Except SessionError (Response × Session)
  | .start flows => (s.start flows).map fun (t, s) => (.turn t, s)
  | .startFlow flow args => (s.startFlow flow args).map fun (id, t, s) => (.started id t, s)
  | .submit e => (s.submit e).map fun (t, s) => (.turn t, s)
  | .completeCall call result => (s.completeCall call result).map fun (t, s) => (.turn t, s)
  | .fireTimers now => (s.fireTimers now).map fun (t, s) => (.turn t, s)
  | .abort id reason => (s.abort id reason).map fun (t, s) => (.turn t, s)
  | .takeRequests => .ok (.requests s.takeRequests.1, s.takeRequests.2)
  | .takeNotices => .ok (.notices s.takeNotices.1, s.takeNotices.2)
  | .close reason => .ok (.closed, s.close reason)
  | .elapse now => .ok (.elapsed, s.tick now)

/-- An operation leaves what it responds. -/
theorem apply_eq_respond (s : Session) (o : Operation) :
    s.apply o = match s.respond o with
      | .ok (_, s') => s'
      | .error _ => s := by
  cases o with
  | start flows => cases h : s.start flows <;> simp [apply, respond, h, Except.map]
  | startFlow flow args => cases h : s.startFlow flow args <;> simp [apply, respond, h, Except.map]
  | submit e => cases h : s.submit e <;> simp [apply, respond, h, Except.map]
  | completeCall call result =>
    cases h : s.completeCall call result <;> simp [apply, respond, h, Except.map]
  | fireTimers now => cases h : s.fireTimers now <;> simp [apply, respond, h, Except.map]
  | abort id reason => cases h : s.abort id reason <;> simp [apply, respond, h, Except.map]
  | takeRequests => rfl
  | takeNotices => rfl
  | close reason => rfl
  | elapse now => rfl

/-- Two sessions differ at most in their bounds, which are given for the second one, and in the
ended instances that they remember. -/
def Agrees (l : Limits) (s s' : Session) : Prop := ∃ archive, s' = { s with limits := l, archive }

theorem Agrees.openCascade (h : s.Agrees l s') : s.openCascade.Agrees l s'.openCascade := by
  obtain ⟨archive, rfl⟩ := h
  exact ⟨archive, rfl⟩

/-- Two responses are the same and leave sessions that agree, unless a limit has been met in the
first one. -/
inductive Matches (l : Limits) : Except SessionError (Response × Session) →
    Except SessionError (Response × Session) → Prop
  | refused (e : SessionError) : Matches l (.error e) (.error e)
  | agrees (r : Response) {s s' : Session} (h : s.Agrees l s') :
    Matches l (.ok (r, s)) (.ok (r, s'))
  | met {r : Response} {s : Session} {x} (met : r.meetsLimit = true) : Matches l (.ok (r, s)) x

theorem meetsLimit_run {c : Cascade} {r : Response} (taken : r.turn? = some c.run.1)
    (h : (Cascade.drain c.limits.cascadeSteps c.settle).fault.isSome ∨
      (Cascade.drain c.limits.cascadeSteps c.settle).IsExhausted) : r.meetsLimit = true := by
  rw [Response.meetsLimit, taken, Option.any_some, Turn.meetsLimit, Bool.or_eq_true]
  refine h.imp (fun fault => fault) fun ⟨f, hf, limit⟩ => ?_
  exact List.any_eq_true.2 ⟨f, Array.mem_toList_iff.2 hf, limit⟩

/-- Turns that begin alike go on alike. -/
theorem matches_run {c d : Cascade} (ready : c.settle.Ready) (bound : c.limits.AtMost l)
    (h : c.Agrees l d) (response : Turn → Response) (taken : ∀ t, (response t).turn? = some t) :
    Matches l (.ok (response c.run.1, c.run.2)) (.ok (response d.run.1, d.run.2)) := by
  have settled : c.settle.limits = c.limits := (Cascade.aside_settle c).limits
  rcases Cascade.follows_drain _ _ (h.limits.symm ▸ bound.cascadeSteps) ready
    (settled.symm ▸ bound) h.settle with fault | exhausted | ⟨archive, same⟩
  · exact .met (meetsLimit_run (taken _) (.inl fault))
  · exact .met (meetsLimit_run (taken _) (.inr exhausted))
  · have run_eq : d.run = (c.run.1, { c.run.2 with limits := l, archive }) := by
      rw [Cascade.run, same]
      rfl
    rw [run_eq]
    exact .agrees _ ⟨archive, rfl⟩

theorem checkOpen_of_agrees (h : s.Agrees l s') : s'.checkOpen = s.checkOpen := by
  obtain ⟨archive, rfl⟩ := h
  rfl

theorem agrees_completing (h : s.Agrees l s') (call : CallId)
    (result : Except ActionError Value) :
    (s.completing call result).Agrees l (s'.completing call result) := by
  obtain ⟨archive, rfl⟩ := h
  unfold completing
  dsimp only
  split <;> exact ⟨archive, rfl⟩

theorem agrees_firing (h : s.Agrees l s') (now : Instant) :
    (s.firing now).Agrees l (s'.firing now) := by
  obtain ⟨archive, rfl⟩ := h
  have opened : Cascade.Agrees l ({ s.tick now with
      timers := ((s.tick now).timers.takeDue now).2 } : Session).openCascade
        ({ ({ s with limits := l, archive } : Session).tick now with
          timers := ((s.tick now).timers.takeDue now).2 } : Session).openCascade :=
    ⟨archive, rfl⟩
  exact opened.foldl (fun t h => h.enqueue (timeoutEvent t.1 t.2)) _

theorem agrees_close (h : s.Agrees l s') (reason : String) :
    (s.close reason).Agrees l (s'.close reason) := by
  obtain ⟨archive, rfl⟩ := h
  unfold close
  dsimp only
  split
  · exact ⟨archive, rfl⟩
  · exact ⟨∅, rfl⟩

/-- Sessions that begin alike to launch flows go on alike, or both know the same flows only. -/
theorem matches_start (ready : s.openCascade.Ready) (bound : s.limits.AtMost l)
    (h : s.Agrees l s') (isOpen : s.checkOpen = .ok ()) (flows : List String) :
    Matches l (s.respond (.start flows)) (s'.respond (.start flows)) := by
  have opened := h.openCascade
  have isOpen' := (checkOpen_of_agrees h).trans isOpen
  have library : s'.library = s.library := opened.library
  cases known : flows.find? fun name => !s.library.contains name with
  | some missing =>
    rw [respond, respond, start_of_unknown isOpen known,
      start_of_unknown isOpen' (library.symm ▸ known)]
    exact .refused _
  | none =>
    have within : s.openCascade.Within l := ⟨ready.orderly, bound⟩
    obtain ⟨c, launched, started⟩ := exists_start (s := s) ready.orderly.sound isOpen known
    have ht : s.turn? (.start flows) = some (Cascade.launchAllHistory flows s.openCascade,
        c.notify (.sessionOpened flows)) := by
      simp only [turn?, isOpen, known, launched]
    have settled := ready_turn? ready ht
    have limits : c.limits = s.limits := (path_turn? ready.orderly.sound ht).passes_limits
    rw [respond, respond, started]
    -- The budget may already be met by what the flows do before they are suspended.
    rcases Cascade.follows_launchAll within opened launched with exhausted | ⟨d, hd, agrees⟩
    · have exhausted : (c.notify (.sessionOpened flows)).IsExhausted := exhausted
      exact .met (meetsLimit_run rfl (.inr (exhausted.settle.drain settled _)))
    · rw [start_of_launchAll isOpen' (library.symm ▸ known) hd]
      exact matches_run settled (limits.symm ▸ bound) (agrees.notify _) .turn fun _ => rfl

theorem matches_startFlow (ready : s.openCascade.Ready) (bound : s.limits.AtMost l)
    (h : s.Agrees l s') (isOpen : s.checkOpen = .ok ()) (flow : String) (args : Params) :
    Matches l (s.respond (.startFlow flow args)) (s'.respond (.startFlow flow args)) := by
  have opened := h.openCascade
  have isOpen' := (checkOpen_of_agrees h).trans isOpen
  have within : s.openCascade.Within l := ⟨ready.orderly, bound⟩
  rw [respond, respond]
  cases launched : s.openCascade.launch flow args with
  | none =>
    rw [startFlow_of_unknown isOpen launched,
      startFlow_of_unknown isOpen' (Cascade.launch_eq_none opened launched)]
    exact .refused _
  | some p =>
    obtain ⟨id, c⟩ := p
    have ht : s.turn? (.startFlow flow args) =
        some (s.openCascade.launchHistory flow args, c) := by
      simp only [turn?, isOpen, launched]
    have settled := ready_turn? ready ht
    have limits : c.limits = s.limits := (path_turn? ready.orderly.sound ht).passes_limits
    obtain ⟨d, hd, exhausted | agrees⟩ := Cascade.follows_launch within opened launched
    · rw [startFlow_of_launch isOpen launched]
      exact .met (meetsLimit_run rfl (.inr (exhausted.settle.drain settled _)))
    · rw [startFlow_of_launch isOpen launched, startFlow_of_launch isOpen' hd]
      exact matches_run settled (limits.symm ▸ bound) agrees (.started id) fun _ => rfl

/-- A session that takes in nothing refuses every operation but those that take something out, and
the passing of time. -/
theorem respond_of_closed (o : Operation) :
    (∀ (s : Session) e, s.checkOpen = .error e → s.respond o = .error e) ∨
      o = .takeRequests ∨ o = .takeNotices ∨ (∃ reason, o = .close reason) ∨
        ∃ now, o = .elapse now := by
  cases o with
  | takeRequests => exact .inr (.inl rfl)
  | takeNotices => exact .inr (.inr (.inl rfl))
  | close reason => exact .inr (.inr (.inr (.inl ⟨reason, rfl⟩)))
  | elapse now => exact .inr (.inr (.inr (.inr ⟨now, rfl⟩)))
  | _ =>
    refine .inl fun s e closed => ?_
    simp [respond, start_of_closed closed, startFlow_of_closed closed, submit_of_closed closed,
      completeCall_of_closed closed, fireTimers_of_closed closed, abort_of_closed closed,
      Except.map]

/-- An operation gets the same response, unless it meets a limit. -/
theorem matches_respond (ready : s.openCascade.Ready) (bound : s.limits.AtMost l)
    (h : s.Agrees l s') (o : Operation) : Matches l (s.respond o) (s'.respond o) := by
  have opened := h.openCascade
  have same := checkOpen_of_agrees h
  have idle : ∀ {o : Operation}, (o = .takeRequests ∨ o = .takeNotices ∨
      (∃ reason, o = .close reason) ∨ ∃ now, o = .elapse now) →
        Matches l (s.respond o) (s'.respond o) := by
    rintro o (rfl | rfl | ⟨reason, rfl⟩ | ⟨now, rfl⟩)
    · obtain ⟨archive, rfl⟩ := h
      exact .agrees _ ⟨archive, rfl⟩
    · obtain ⟨archive, rfl⟩ := h
      exact .agrees _ ⟨archive, rfl⟩
    · exact .agrees _ (agrees_close h reason)
    · obtain ⟨archive, rfl⟩ := h
      exact .agrees _ ⟨archive, rfl⟩
  cases isOpen : s.checkOpen with
  | error e =>
    rcases respond_of_closed o with refuses | none
    · rw [refuses s e isOpen, refuses s' e (same.trans isOpen)]
      exact .refused e
    · exact idle none
  | ok _ =>
    have isOpen' := same.trans isOpen
    -- What begins without running anything begins alike.
    have run {c d : Cascade} (ht : s.turn? o = some ([], c)) (agrees : c.Agrees l d) :
        Matches l (.ok (.turn c.run.1, c.run.2)) (.ok (.turn d.run.1, d.run.2)) := by
      have limits : c.limits = s.limits := (path_turn? ready.orderly.sound ht).passes_limits
      exact matches_run (ready_turn? ready ht) (limits.symm ▸ bound) agrees .turn fun _ => rfl
    cases o with
    | start flows => exact matches_start ready bound h isOpen flows
    | startFlow flow args => exact matches_startFlow ready bound h isOpen flow args
    | submit e =>
      rw [respond, respond, submit_eq isOpen, submit_eq isOpen']
      exact run (by rw [turn?, isOpen]) (opened.enqueue e)
    | completeCall call result =>
      rw [respond, respond, completeCall_eq isOpen, completeCall_eq isOpen']
      exact run (by rw [turn?, isOpen]) (agrees_completing h call result)
    | fireTimers now =>
      rw [respond, respond, fireTimers_eq isOpen, fireTimers_eq isOpen']
      exact run (by rw [turn?, isOpen]) (agrees_firing h now)
    | abort id reason =>
      rw [respond, respond, abort_eq isOpen, abort_eq isOpen']
      exact run (by rw [turn?, isOpen]) (opened.terminate id (.stopped reason) true)
    | takeRequests => exact idle (.inl rfl)
    | takeNotices => exact idle (.inr (.inl rfl))
    | close reason => exact idle (.inr (.inr (.inl ⟨reason, rfl⟩)))
    | elapse now => exact idle (.inr (.inr (.inr ⟨now, rfl⟩)))

/-! ## Runs -/

/-- An operation at an instant. -/
def applyAt (s : Session) (o : Instant × Operation) : Session := (s.tick o.1).apply o.2

/-- What comes of an operation at an instant. -/
def responseAt (s : Session) (o : Instant × Operation) : Except SessionError Response :=
  ((s.tick o.1).respond o.2).map Prod.fst

/-- What comes of operations at their instants, one after the other. -/
def responsesOf : Session → List (Instant × Operation) → List (Except SessionError Response)
  | _, [] => []
  | s, o :: rest => s.responseAt o :: (s.applyAt o).responsesOf rest

theorem ready_tick (h : s.openCascade.Ready) (now : Instant) : (s.tick now).openCascade.Ready where
  orderly := by
    have aside : s.openCascade.Aside (s.tick now).openCascade :=
      ⟨rfl, rfl, rfl, rfl, rfl, .refl _, .refl _, s.clock.le_max_left now⟩
    exact (Path.single (.aside aside)).passes_orderly h.orderly
  calm := h.calm
  produced := rfl

theorem ready_applyAt (h : s.openCascade.Ready) (o : Instant × Operation) :
    (s.applyAt o).openCascade.Ready :=
  ready_apply (ready_tick h o.1) o.2

theorem limits_applyAt (h : s.openCascade.Ready) (o : Instant × Operation) :
    (s.applyAt o).limits = s.limits :=
  (path_history (ready_tick h o.1).orderly.sound o.2).passes_limits

theorem agrees_applyAt (ready : s.openCascade.Ready) (bound : s.limits.AtMost l)
    (h : s.Agrees l s') (o : Instant × Operation)
    (unmet : ∀ r, s.responseAt o = .ok r → r.meetsLimit = false) :
    s'.responseAt o = s.responseAt o ∧ (s.applyAt o).Agrees l (s'.applyAt o) := by
  have ticked : (s.tick o.1).Agrees l (s'.tick o.1) := by
    obtain ⟨archive, rfl⟩ := h
    exact ⟨archive, rfl⟩
  have matching := matches_respond (ready_tick ready o.1) bound ticked o.2
  unfold responseAt at unmet ⊢
  rw [applyAt, applyAt, apply_eq_respond, apply_eq_respond]
  generalize (s.tick o.1).respond o.2 = x, (s'.tick o.1).respond o.2 = y at matching unmet
  cases matching with
  | refused e => exact ⟨rfl, ticked⟩
  | agrees r h => exact ⟨rfl, h⟩
  | met met =>
    rw [unmet _ rfl] at met
    cases met

theorem agrees_foldl_applyAt {os : List (Instant × Operation)} (ready : s.openCascade.Ready)
    (bound : s.limits.AtMost l) (h : s.Agrees l s')
    (unmet : ∀ r, .ok r ∈ s.responsesOf os → r.meetsLimit = false) :
    s'.responsesOf os = s.responsesOf os ∧
      ∀ os', os' <+: os → (os'.foldl applyAt s).Agrees l (os'.foldl applyAt s') := by
  induction os generalizing s s' with
  | nil =>
    refine ⟨rfl, fun os' sub => ?_⟩
    obtain rfl := List.prefix_nil.1 sub
    exact h
  | cons o rest ih =>
    have first : ∀ r, s.responseAt o = .ok r → r.meetsLimit = false :=
      fun r hr => unmet r (hr ▸ List.mem_cons_self)
    obtain ⟨same, agrees⟩ := agrees_applyAt ready bound h o first
    obtain ⟨others, after⟩ := ih (ready_applyAt ready o) ((limits_applyAt ready o).symm ▸ bound)
      agrees fun r hr => unmet r (List.mem_cons_of_mem _ hr)
    refine ⟨by rw [responsesOf, responsesOf, same, others], fun os' sub => ?_⟩
    rcases List.prefix_cons_iff.1 sub with rfl | ⟨os'', rfl, tail⟩
    · exact h
    · exact after os'' tail

/-- Limits matter only when they are met. As long as no turn is broken off and none reports an
activation that was, two runs of the same operations at the same instants get the same responses if
the bounds of the second one allow at least as much. After each operation the two sessions differ at
most in these bounds and in which of the ended instances they remember. -/
theorem limits_matter_only_when_met (name : String) (library : FlowLibrary) (context : Params)
    {small large : Limits} (bound : small.AtMost large) (os : List (Instant × Operation))
    (unmet : ∀ r, .ok r ∈ (new name library small context).responsesOf os →
      r.meetsLimit = false) :
    (new name library large context).responsesOf os =
        (new name library small context).responsesOf os ∧
      ∀ os', os' <+: os → ∃ archive, os'.foldl applyAt (new name library large context) =
        { os'.foldl applyAt (new name library small context) with limits := large, archive } :=
  agrees_foldl_applyAt (ready_new name library small context) bound ⟨∅, rfl⟩ unmet

/-- A flow asks for an action and is done when its result comes. With bounds that this just keeps,
and with nothing remembered, the user notices no difference. -/
theorem limits_matter_only_when_met_asking :
    ∃ library, FlowLibrary.ofDefinitions Vocabulary.standard askingFlows = .ok library ∧
      (new "session" library .standard ∅).responsesOf
          [(⟨0⟩, .start ["asker"]), (⟨1⟩, .takeRequests), (⟨2⟩, .completeCall ⟨1⟩ (.ok .null))] =
        (new "session" library ⟨2, 2, 0⟩ ∅).responsesOf
          [(⟨0⟩, .start ["asker"]), (⟨1⟩, .takeRequests),
            (⟨2⟩, .completeCall ⟨1⟩ (.ok .null))] := by
  have run : (FlowLibrary.ofDefinitions Vocabulary.standard askingFlows).toOption.any
      (fun library => ((new "session" library ⟨2, 2, 0⟩ ∅).responsesOf
        [(⟨0⟩, .start ["asker"]), (⟨1⟩, .takeRequests),
          (⟨2⟩, .completeCall ⟨1⟩ (.ok .null))]).all fun x =>
            x.toOption.all fun r => !r.meetsLimit) = true := by
    decide +kernel
  obtain ⟨library, loaded, run⟩ := exists_of_toOption_any run
  simp only [List.all_eq_true] at run
  refine ⟨library, loaded, (limits_matter_only_when_met "session" library ∅ ⟨by decide, by decide⟩ _
    fun r hr => ?_).1⟩
  simpa [Except.toOption] using run (.ok r) hr

end Session

end Dialogue
