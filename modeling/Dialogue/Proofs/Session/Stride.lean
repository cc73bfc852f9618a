import Dialogue.Proofs.Session.Downfall

/-!
# A run, stride by stride

A change only says what may become of a state. Sometimes it has to be known how it came about: which
instruction was run, or which bindings an instance has gone on with. A stride is one of the things
that a session does as a whole: an instance begins, runs an instruction, or is ended early; its wait
comes to an end; it goes on with bindings that have been checked. Every run is made of strides, and
they lead from each state of its history to the next one.

## Main definitions

* `Cascade.Stride`, `Cascade.Strides` — one stride, and strides one after the other
* `Cascade.Trail` — the states of a history, with strides between them

## Main results

* `Cascade.Stride.coherent` — strides lead to states that a session can be in
* `Cascade.trail_runStack`, `Cascade.trail_resume`, `Cascade.trail_drain` — histories are trails
* `Session.trail_historyOf` — the history of a run is a trail
-/

namespace Dialogue

open Relation (ReflTransGen)

namespace Cascade

variable {c c' c'' : Cascade} {id : InstanceId} {i : Instance} {w : Wait} {ms ms' : List Moment}

/-! ## Strides -/

/-- One of the things that a session does as a whole. -/
inductive Stride (c : Cascade) : Cascade → Prop
  /-- An instance begins that nothing stands above. -/
  | launch {flow args id} {c' : Cascade} (h : c.spawn flow args none false = some (id, c')) :
      Stride c c'
  /-- A running instance runs its next instruction. -/
  | step {i : Instance} (live : c.instances.get? i.id = some i) (running : i.phase = .running) :
      Stride c (c.step i).1
  /-- An instance is ended early, and what it has started. -/
  | terminate (id : InstanceId) (error : FlowError) (isReported : Bool) :
      Stride c (c.terminate id error isReported)
  /-- The wait of an instance comes to its end, and what it does not keep is given up. -/
  | disarm {i : Instance} {w : Wait} (live : c.instances.get? i.id = some i)
      (waiting : i.wait? = some w) (kept : Option Nat) : Stride c (c.disarm i kept)
  /-- An instance that is awake goes on elsewhere, with bindings that have been checked. -/
  | relocate {id : InstanceId} (awake : c.toSession.waitOf? id = none) (pc : Nat)
      {bindings : Params} (checked : ∀ i, c.instances.get? id = some i →
        checkBindings i.locals bindings i.isParameter = .ok ()) :
      Stride c (c.relocate id pc bindings)
  /-- Something happens that does not concern the instances. -/
  | aside {c' : Cascade} (h : c.Aside c') : Stride c c'
  /-- The session is closed. -/
  | close (reason : String) : Stride c (c.toSession.close reason).openCascade

/-- Strides, one after the other. -/
abbrev Strides : Cascade → Cascade → Prop := ReflTransGen Stride

theorem Stride.moves (h : c.Stride c') (hs : c.toSession.Sound) : ReflTransGen Moves c c' := by
  cases h with
  | launch h => exact .single (.passes (.change (.begin h nofun)))
  | step live running => exact ((path_step hs live running).mono fun _ _ => .change).moves
  | terminate id error isReported => exact moves_of_changes (changes_terminate hs id error _)
  | disarm live waiting kept =>
    exact (((disarms hs live waiting kept).path none).mono fun _ _ => .change).moves
  | relocate awake pc => exact moves_of_changes (goesOn_relocate hs awake pc _).changes
  | aside h => exact .single (.passes (.aside h))
  | close reason =>
    exact .head (.passes (.aside (aside_reopen c)))
      (.single (.passes (c.toSession.passes_idle (.close reason))))

/-- Strides lead to states that a session can be in. -/
theorem Stride.coherent (h : c.Stride c') (hc : c.toSession.Coherent) : c'.toSession.Coherent :=
  coherent_of_moves (h.moves hc.sound) hc

theorem Stride.later (h : c.Stride c') (hs : c.toSession.Sound) :
    c.toSession.Later c'.toSession :=
  later_of_moves (h.moves hs)

theorem coherent_of_strides (h : Strides c c') (hc : c.toSession.Coherent) :
    c'.toSession.Coherent := by
  induction h with
  | refl => exact hc
  | tail _ last ih => exact last.coherent ih

/-- A list of things that are done by strides is done by strides. -/
theorem strides_foldl {α : Type} {f : Cascade → α → Cascade} (step : ∀ c a, Strides c (f c a))
    (as : List α) (c : Cascade) : Strides c (as.foldl f c) := by
  induction as generalizing c with
  | nil => exact .refl
  | cons a rest ih => exact (step c a).trans (ih (f c a))

/-! ## Trails -/

/-- The states of a history, from its beginning to its end. Each of them has come by strides from
those before it. -/
def Trail (c : Cascade) (ms : List Moment) (c' : Cascade) : Prop :=
  (c :: ms.flatMap Moment.states ++ [c']).Pairwise Strides

theorem Trail.strides (h : Trail c ms c') : Strides c c' :=
  (List.pairwise_cons.1 h).1 c' (by simp)

theorem Trail.of_strides (h : Strides c c') : Trail c [] c' := by
  simpa [Trail] using h

/-- A moment that is the end of strides. -/
theorem Trail.suspended (h : Strides c c') : Trail c [.suspended id w c'] c' := by
  have same : Strides c' c' := .refl
  simp [Trail, Moment.states, h, same]

theorem Trail.woken {kept target : Option Nat} (h : Strides c c') :
    Trail c [.woken id w kept target c c'] c' := by
  have first : Strides c c := .refl
  have last : Strides c' c' := .refl
  simp [Trail, Moment.states, h, first, last]

theorem Trail.delivered (e : Event) (c : Cascade) : Trail c [.delivered e c] c := by
  have same : Strides c c := .refl
  simp [Trail, Moment.states, same]

theorem Trail.trans (h : Trail c ms c') (h' : Trail c' ms' c'') : Trail c (ms ++ ms') c'' := by
  obtain ⟨before, -, toEnd⟩ := List.pairwise_append.1 h
  obtain ⟨fromStart, after⟩ := List.pairwise_cons.1 h'
  have whole : (c :: ms.flatMap Moment.states) ++ (ms'.flatMap Moment.states ++ [c'']) =
      c :: (ms ++ ms').flatMap Moment.states ++ [c''] := by simp
  rw [Trail, ← whole]
  exact List.pairwise_append.2 ⟨before, after, fun d hd d' hd' =>
    (toEnd d hd c' (List.mem_singleton_self c')).trans (fromStart d' hd')⟩

/-! ## Activations -/

theorem trail_step (live : c.instances.get? i.id = some i) (running : i.phase = .running) :
    Trail c (c.stepHistory i) (c.step i).1 := by
  have stride : Strides c (c.step i).1 := .single (.step live running)
  unfold stepHistory
  split
  · exact .suspended stride
  · exact .of_strides stride

theorem strides_exhaust (c : Cascade) (root : InstanceId) (stack : List InstanceId) :
    Strides c (c.exhaust root stack) := by
  rw [exhaust_eq]
  refine .head (.terminate root _ true) (strides_foldl (fun c id => ?_) stack _)
  unfold endRunning
  split
  · split
    · exact .refl
    · exact .single (.terminate id _ false)
  · exact .refl

theorem trail_runStack (root : InstanceId) : ∀ (budget : Nat) (stack : List InstanceId)
    {c : Cascade}, c.toSession.Coherent →
      Trail c (stackHistory root budget stack c) (runStack root budget stack c)
  | budget, stack, c, hc => by
    unfold stackHistory runStack
    cases h : c.firstRunning? stack with
    | none => exact .of_strides .refl
    | some first =>
      obtain ⟨i, rest⟩ := first
      cases budget with
      | zero => exact .of_strides (strides_exhaust c root _)
      | succ budget =>
        obtain ⟨id, hi, running, -⟩ := firstRunning?_eq_some h
        have live : c.instances.get? i.id = some i := (hc.sound.id_eq hi).symm ▸ hi
        exact (trail_step live running).trans
          (trail_runStack root budget _ (Stride.coherent (.step live running) hc))

theorem trail_activate (hc : c.toSession.Coherent) (id : InstanceId) :
    Trail c (c.activateHistory id) (c.activate id) :=
  trail_runStack id _ _ hc

/-! ## Deliveries -/

theorem trail_advance (hc : c.toSession.Coherent) (awake : c.toSession.waitOf? id = none) (pc : Nat)
    {bindings : Params} (checked : ∀ i, c.instances.get? id = some i →
      checkBindings i.locals bindings i.isParameter = .ok ()) :
    Trail c (c.advanceHistory id pc bindings) (c.advance id pc bindings) := by
  have first : c.Stride (c.relocate id pc bindings) := .relocate awake pc checked
  exact (Trail.of_strides (.single first)).trans (trail_activate (first.coherent hc) id)

/-- An instance keeps its variables when its wait comes to an end. -/
theorem Disarms.locals {kept : Option Nat} {i' : Instance} (h : Disarms c id w kept c')
    (hi : c.instances.get? id = some i) (hi' : c'.instances.get? id = some i') :
    i'.flow = i.flow ∧ i'.locals = i.locals := by
  obtain ⟨c₁, ⟨live, -⟩, -, survivors⟩ := h.wakes
  obtain ⟨j, hj, left⟩ := survivors id i' hi'
  obtain rfl := Option.some.inj (hi.symm.trans live)
  obtain rfl := Option.some.inj ((Table.get?_insert_self ..).symm.trans hj)
  exact ⟨left.flow, left.locals⟩

/-- An instance whose wait comes to its end goes on, with bindings that have been checked. -/
theorem trail_goesOn (hc : c.toSession.Coherent) (hi : c.instances.get? id = some i)
    (hw : i.wait? = some w) (kept : Option Nat) (pc : Nat) {bindings : Params}
    (checked : checkBindings i.locals bindings i.isParameter = .ok ()) :
    Trail c (.woken id w kept (some pc) c (c.disarm i kept) ::
      (c.disarm i kept).advanceHistory id pc bindings)
        ((c.disarm i kept).advance id pc bindings) := by
  obtain rfl := hc.sound.id_eq hi
  have disarmed := disarms hc.sound hi hw kept
  have first : c.Stride (c.disarm i kept) := .disarm hi hw kept
  refine (Trail.woken (.single first)).trans
    (trail_advance (first.coherent hc) disarmed.awake pc fun i' hi' => ?_)
  obtain ⟨flow, locals⟩ := disarmed.locals hi hi'
  rw [locals]
  unfold Instance.isParameter
  rw [flow]
  exact checked

theorem Resumes.trail {r : Resolution} {ms : List Moment} (h : Resumes c id r c' ms)
    (hc : c.toSession.Coherent) : Trail c ms c' := by
  cases h with
  | stays => exact .of_strides .refl
  | ends => exact .of_strides (.single (.terminate id _ true))
  | advances hi hw _ checked => exact trail_goesOn hc hi hw r.kept? _ checked
  | fails hi hw =>
    have first : c.Stride (c.disarm _ none) := .disarm ((hc.sound.id_eq hi).symm ▸ hi) hw none
    exact (Trail.woken (.single first)).trans (.of_strides (.single (.terminate id _ true)))

theorem trail_resume (hc : c.toSession.Coherent) (id : InstanceId) (r : Resolution) :
    Trail c (c.resumeHistory id r) (c.resume id r) :=
  (resumes c id r).trail hc

theorem trail_foldl_resume (hc : c.toSession.Coherent) (rs : List (InstanceId × Resolution)) :
    Trail c
      (foldHistory (fun c r => c.resume r.1 r.2) (fun c r => c.resumeHistory r.1 r.2) c rs)
      (rs.foldl (fun c r => c.resume r.1 r.2) c) := by
  induction rs generalizing c with
  | nil => exact .of_strides .refl
  | cons r rest ih =>
    have first := trail_resume hc r.1 r.2
    exact first.trans (ih (coherent_of_strides first.strides hc))

theorem strides_purge (c : Cascade) (e : Event) : Strides c (c.purge e) :=
  strides_foldl (fun _ (b : InstanceId × FlowError) => .single (.terminate b.1 b.2 true))
    (c.broken e) c

theorem trail_deliver (hc : c.toSession.Coherent) (e : Event) :
    Trail c (c.deliverHistory e) (c.deliver e) := by
  have purged := strides_purge c e
  rw [deliver_eq]
  exact (Trail.delivered e c).trans ((Trail.of_strides purged).trans
    (trail_foldl_resume (coherent_of_strides purged hc) (c.consumers e)))

/-! ## Turns -/

theorem trail_drain : ∀ (budget : Nat) {c : Cascade}, c.toSession.Coherent →
    Trail c (drainHistory budget c) (drain budget c)
  | budget, c, hc => by
    unfold drainHistory drain
    cases c.queue with
    | nil => exact .of_strides .refl
    | cons e rest =>
      cases budget with
      | zero => exact .of_strides (.single (.aside (aside_poison c)))
      | succ budget =>
        let c₁ : Cascade := { c with queue := rest }
        have popped : c.Stride c₁ := .aside (aside_pop c rest)
        have hc₁ := popped.coherent hc
        have delivery : Trail c₁ (c₁.deliverHistory e) (c₁.deliver e) := trail_deliver hc₁ e
        have settled : (c₁.deliver e).Stride (c₁.deliver e).settle := .aside (aside_settle _)
        have hc₂ := settled.coherent (coherent_of_strides delivery.strides hc₁)
        have more := (Trail.of_strides (.single settled)).trans (trail_drain budget hc₂)
        exact (Trail.of_strides (.single popped)).trans (delivery.trans more)

theorem trail_run (hc : c.toSession.Coherent) : Trail c c.runHistory c.run.2.openCascade := by
  have settled : c.Stride c.settle := .aside (aside_settle c)
  have drained := trail_drain c.limits.cascadeSteps (settled.coherent hc)
  have ended : Strides (drain c.limits.cascadeSteps c.settle) c.run.2.openCascade :=
    .single (.aside (aside_reopen _))
  have whole := (Trail.of_strides (.single settled)).trans (drained.trans (.of_strides ended))
  rwa [List.append_nil] at whole

theorem trail_launch {flow : String} {args : Params} (hc : c.toSession.Coherent)
    (h : c.launch flow args = some (id, c')) : Trail c (c.launchHistory flow args) c' := by
  obtain ⟨⟨k, d⟩, hspawn, heq⟩ := Option.map_eq_some_iff.1 h
  obtain ⟨rfl, rfl⟩ := Prod.mk.inj heq
  have begun : c.Stride d := .launch hspawn
  rw [launchHistory, hspawn]
  exact (Trail.of_strides (.single begun)).trans (trail_activate (begun.coherent hc) k)

theorem trail_launchAll : ∀ {flows : List String} {c c' : Cascade}, c.toSession.Coherent →
    launchAll flows c = .ok c' → Trail c (launchAllHistory flows c) c'
  | [], c, c', _, h => by
    obtain rfl := Except.ok.inj h
    exact .of_strides .refl
  | flow :: rest, c, c', hc, h => by
    unfold launchAll at h
    rw [launchAllHistory]
    cases hl : c.launch flow ∅ with
    | none => rw [hl] at h; cases h
    | some p =>
      rw [hl] at h
      have first := trail_launch hc hl
      exact first.trans (trail_launchAll (coherent_of_strides first.strides hc) h)

end Cascade

namespace Session

open Cascade (Trail Strides)

variable {s : Session}

theorem trail_turn? (hs : s.Coherent) {o : Operation} {ms : List Moment} {c : Cascade}
    (h : s.turn? o = some (ms, c)) : Trail s.openCascade ms c := by
  cases begins_of_turn? h with
  | @start flows d launched =>
    have path : Trail s.openCascade _ d := Cascade.trail_launchAll hs launched
    have noted : Strides d (d.notify (.sessionOpened flows)) := .single (.aside (d.aside_notify _))
    have whole := path.trans (.of_strides noted)
    rwa [List.append_nil] at whole
  | startFlow launched => exact Cascade.trail_launch hs launched
  | submit e => exact .of_strides (.single (.aside (s.openCascade.aside_enqueue e)))
  | completeCall call result =>
    exact .of_strides (.single (.aside (s.aside_completing call result)))
  | fireTimers now => exact .of_strides (.single (.aside (s.aside_firing now)))
  | abort id reason => exact .of_strides (.single (.terminate id _ true))

theorem strides_idle (s : Session) (o : Operation) :
    Strides s.openCascade (s.idle o).openCascade := by
  cases o with
  | takeRequests => exact .single (.aside s.aside_takeRequests)
  | takeNotices => exact .single (.aside s.aside_takeNotices)
  | close reason => exact .single (.close reason)
  | elapse now => exact .single (.aside (s.aside_elapse now))
  | _ => exact .refl

theorem trail_history (hs : s.Coherent) (o : Operation) :
    Trail s.openCascade (s.history o) (s.apply o).openCascade := by
  rw [apply_eq, history]
  cases h : s.turn? o with
  | none => exact .of_strides (s.strides_idle o)
  | some t =>
    obtain ⟨ms, c⟩ := t
    have begun := trail_turn? hs h
    exact begun.trans (Cascade.trail_run (Cascade.coherent_of_strides begun.strides hs))

/-- The history of a run is a trail. -/
theorem trail_historyOf (hs : s.Coherent) (os : List Operation) :
    Trail s.openCascade (s.historyOf os) (s.applyAll os).openCascade := by
  induction os generalizing s with
  | nil => exact .of_strides .refl
  | cons o rest ih =>
    have first := trail_history hs o
    exact first.trans (ih (Cascade.coherent_of_strides first.strides hs))

end Session

end Dialogue
