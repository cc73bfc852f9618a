import Dialogue.Proofs.Session.Run

/-!
# Sessions come to rest

Between two operations no instance of a session has anything left to do: every live one is suspended
at a `select` of its program and has everything armed that the `select` asks for.

In the middle of a turn some instances run, and all of them are on the stack of the activation that
is going on. A step puts on the stack what it begins. If an activation runs out of budget, what is
still on the stack is ended. An instance that begins and is not put on the stack has been begun by
an instruction that fails, and it goes down with the instance that ran the instruction.

## Main definitions

* `Session.AtRest` — what holds between two operations

## Main results

* `Cascade.calm_runStack` — nothing runs after an activation
* `Session.atRest_applyAll` — every run ends at rest
-/

namespace Dialogue

/-- A suspended instance in order: it stands at a `select`, every arm of the `select` is armed with
something of its kind, there is a timer if the `select` has a timeout, and all parameters of the
flow have a value. -/
structure Instance.AtRest (i : Instance) : Prop where
  waits : ∃ w s, i.phase = .waiting w ∧ w.select = i.pc ∧
    i.flow.program.get? w.select = some (.select s) ∧
      List.Forall₂ (fun arm armed => arm.lead.IsArmedAs armed) s.arms w.arms ∧
        (w.timer.isSome ↔ s.timeout.isSome)
  bound : ∀ p ∈ i.flow.definition.parameters, i.locals.contains p = true

/-- A session between two operations. -/
structure Session.AtRest (limits : Limits) (s : Session) : Prop where
  live : ∀ id i, s.instances.get? id = some i → i.AtRest
  apart : ∀ id, s.instances.get? id = none ∨ s.archive.get? id = none
  ended : ∀ id i, s.archive.get? id = some i →
    i.phase = .completed ∨ ∃ reason, i.phase = .aborted reason
  archiveSize : s.archive.size ≤ limits.archiveSize
  allocated : ∀ id i, s.find? id = some i → id.number ≤ s.created

namespace Cascade

variable {c c' : Cascade} {id : InstanceId} {i : Instance} {stack : List InstanceId}

/-! ## Activations -/

theorem survivors_endRunning (hs : c.toSession.Sound) (error : FlowError) (id : InstanceId) :
    c.toSession.Survivors (c.endRunning error id).toSession := by
  unfold endRunning
  split
  · split
    · exact .refl _
    · exact survivors_terminate hs id error false
  · exact .refl _

/-- After an instance has been ended unless it is suspended, it does not run. -/
theorem calm_endRunning (hs : c.toSession.Sound) (error : FlowError)
    (h : Calm (id :: stack) c) : Calm stack (c.endRunning error id) := by
  have left := h.survivors (survivors_endRunning hs error id)
  refine left.tail fun j hj hrun => ?_
  unfold endRunning at hj
  cases hi : c.instances.get? id with
  | none =>
    simp only [hi] at hj
    cases hj
  | some i =>
    simp only [hi] at hj
    split at hj
    · next hw =>
      obtain rfl := Option.some.inj (hi.symm.trans hj)
      simp [Instance.isWaiting, Instance.wait?_of_running hrun] at hw
    · rw [get?_terminate_self hs] at hj
      cases hj

theorem calm_foldl_endRunning (hs : c.toSession.Sound) (error : FlowError)
    {ids : List InstanceId} (h : Calm ids c) : Calm [] (ids.foldl (endRunning error) c) := by
  induction ids generalizing c with
  | nil => exact h
  | cons id rest ih =>
    exact ih (Changes.sound (changes_endRunning hs error id) hs) (calm_endRunning hs error h)

/-- Nothing runs after an activation that has run out of budget. -/
theorem calm_exhaust (hs : c.toSession.Sound) (root : InstanceId) (h : Calm stack c) :
    Calm [] (c.exhaust root stack) := by
  rw [exhaust_eq]
  exact calm_foldl_endRunning (Changes.sound (changes_terminate hs root _ true) hs) _
    (h.survivors (survivors_terminate hs root _ true))

theorem calm_of_firstRunning?_eq_none (h : c.firstRunning? stack = none) (hc : Calm stack c) :
    Calm [] c := by
  induction stack with
  | nil => exact hc
  | cons id rest ih =>
    unfold firstRunning? at h
    split at h
    · next j hj =>
      split at h
      · cases h
      · next hr =>
        refine ih h (hc.tail fun i hi hrun => ?_)
        obtain rfl := Option.some.inj (hj.symm.trans hi)
        simp [Instance.isRunning, hrun] at hr
    · next hj =>
      refine ih h (hc.tail fun i hi => ?_)
      rw [hj] at hi
      cases hi

/-- Nothing runs after an activation. -/
theorem calm_runStack (root : InstanceId) : ∀ (budget : Nat) (stack : List InstanceId)
    {c : Cascade}, c.toSession.Sound → c.toSession.Linked → Calm stack c →
      Calm [] (runStack root budget stack c)
  | budget, stack, c, hs, hl, hc => by
    unfold runStack
    cases h : c.firstRunning? stack with
    | none => exact calm_of_firstRunning?_eq_none h hc
    | some first =>
      obtain ⟨i, rest⟩ := first
      obtain ⟨id, hi, hr, calm⟩ := firstRunning?_eq_some h
      obtain rfl := hs.id_eq hi
      cases budget with
      -- Without budget all that runs is ended, since it is on the stack.
      | zero => exact calm_exhaust hs root (calm hc)
      | succ budget =>
        have step := path_step hs hi hr
        exact calm_runStack root budget _ (step.sound hs) (step.linked hs hl)
          (calm_step hs hl hi hr (calm hc))

theorem calm_activate (hs : c.toSession.Sound) (hl : c.toSession.Linked) (h : Calm [id] c) :
    Calm [] (c.activate id) :=
  calm_runStack id _ _ hs hl h

/-! ## Turns -/

/-- Only the instance that has been woken runs after the end of its wait. -/
theorem Disarms.calm {w : Wait} {kept : Option Nat} (h : Disarms c id w kept c')
    (hc : Calm [] c) : Calm [id] c' := by
  obtain ⟨c₁, wakes, -, sv⟩ := h.wakes
  refine Calm.survivors ?_ sv
  obtain ⟨-, -⟩ := wakes
  intro k j hj hrun
  rw [Table.get?_insert] at hj
  split at hj
  · next hk => exact hk ▸ List.mem_cons_self
  · exact absurd (hc k j hj hrun) List.not_mem_nil

theorem Disarms.linked {w : Wait} {kept : Option Nat} (h : Disarms c id w kept c')
    (hs : c.toSession.Sound) (hl : c.toSession.Linked) : c'.toSession.Linked := by
  obtain ⟨c₁, wakes, changes, -⟩ := h.wakes
  exact Changes.linked changes (wakes.sound hs) (wakes.linked hl)

theorem Resumes.calm {r : Resolution} {ms : List Moment} (h : Resumes c id r c' ms)
    (hs : c.toSession.Sound) (hl : c.toSession.Linked) (hc : Calm [] c) : Calm [] c' := by
  cases h with
  | stays => exact hc
  | ends => exact hc.survivors (survivors_terminate hs id _ true)
  | @advances i w r pc bindings hi hw =>
    have d := disarms hs hi hw r.kept?
    have moved := goesOn_relocate (d.sound hs) d.awake pc bindings
    exact calm_activate (Changes.sound moved.changes (d.sound hs))
      (Changes.linked moved.changes (d.sound hs) (d.linked hs hl)) (moved.calm [id] (d.calm hc))
  | fails hi hw =>
    have d := disarms hs hi hw none
    have hs₂ := d.sound hs
    intro k j hj hrun
    -- The only instance that runs is the one that is ended now.
    have hk := (d.calm hc).survivors (survivors_terminate hs₂ id _ true) k j hj hrun
    obtain rfl := List.mem_singleton.1 hk
    rw [get?_terminate_self hs₂] at hj
    cases hj

/-- Nothing runs after a wait has been resolved. -/
theorem calm_resume (hs : c.toSession.Sound) (hl : c.toSession.Linked) (hc : Calm [] c)
    (id : InstanceId) (r : Resolution) : Calm [] (c.resume id r) :=
  (resumes c id r).calm hs hl hc

theorem calm_foldl_resume (hs : c.toSession.Sound) (hl : c.toSession.Linked) (hc : Calm [] c)
    (rs : List (InstanceId × Resolution)) :
    Calm [] (rs.foldl (fun c r => c.resume r.1 r.2) c) := by
  induction rs generalizing c with
  | nil => exact hc
  | cons r rest ih =>
    have first := path_resume hs r.1 r.2
    exact ih (first.sound hs) (first.linked hs hl) (calm_resume hs hl hc r.1 r.2)

/-- Nothing runs after a delivery. -/
theorem calm_deliver (hs : c.toSession.Sound) (hl : c.toSession.Linked) (hc : Calm [] c)
    (e : Event) : Calm [] (c.deliver e) := by
  rw [deliver_eq]
  have purge := changes_purge hs e
  have purged : Calm [] (c.purge e) := hc.survivors (survivors_foldl_terminate hs (c.broken e))
  exact calm_foldl_resume (Changes.sound purge hs) (Changes.linked purge hs hl) purged _

theorem Aside.calm (h : c.Aside c') (hc : Calm stack c) : Calm stack c' := by
  intro k i hi
  rw [h.instances] at hi
  exact hc k i hi

theorem calm_drain : ∀ (budget : Nat) {c : Cascade}, c.toSession.Sound → c.toSession.Linked →
    Calm [] c → Calm [] (drain budget c)
  | budget, c, hs, hl, hc => by
    unfold drain
    cases c.queue with
    | nil => exact hc
    | cons e rest =>
      cases budget with
      | zero => exact hc
      | succ budget =>
        let c₁ : Cascade := { c with queue := rest }
        have delivered := path_deliver (c := c₁) hs e
        have settled := aside_settle (c₁.deliver e)
        exact calm_drain budget ((Passes.aside settled).sound (delivered.sound hs))
          ((Passes.aside settled).linked (delivered.sound hs) (delivered.linked hs hl))
          (settled.calm (calm_deliver (c := c₁) hs hl hc e))

theorem calm_launch {flow : String} {args : Params} (hs : c.toSession.Sound)
    (hl : c.toSession.Linked) (hc : Calm [] c) (h : c.launch flow args = some (id, c')) :
    Calm [] c' := by
  obtain ⟨⟨k, d⟩, hspawn, heq⟩ := Option.map_eq_some_iff.1 h
  obtain ⟨rfl, rfl⟩ := Prod.mk.inj heq
  -- The flow that is launched is the only one that runs, and it is on the stack of its activation.
  have begun : c.Change d := .begin hspawn fun p hp => by cases hp
  exact calm_activate (begun.sound hs) (begun.linked hs hl) (hc.spawn hspawn)

theorem calm_launchAll {flows : List String} (hs : c.toSession.Sound) (hl : c.toSession.Linked)
    (hc : Calm [] c) (h : launchAll flows c = .ok c') : Calm [] c' := by
  induction flows generalizing c with
  | nil =>
    obtain rfl := Except.ok.inj h
    exact hc
  | cons flow rest ih =>
    unfold launchAll at h
    split at h
    · cases h
    · next launched =>
      have first := path_launch hs launched
      exact ih (first.sound hs) (first.linked hs hl) (calm_launch hs hl hc launched) h

end Cascade

/-! ## Operations -/

namespace Session

variable {s : Session}

/-- A session in order in which nothing runs. -/
structure Rests (s : Session) : Prop where
  sound : s.Sound
  linked : s.Linked
  calm : Cascade.Calm [] s.openCascade

theorem calm_turn? (h : s.Rests) {o : Operation} {ms : List Moment} {c : Cascade}
    (ht : s.turn? o = some (ms, c)) : Cascade.Calm [] c := by
  cases begins_of_turn? ht with
  | @start flows c launched =>
    have calm : Cascade.Calm [] c := Cascade.calm_launchAll h.sound h.linked h.calm launched
    exact calm
  | startFlow launched => exact Cascade.calm_launch h.sound h.linked h.calm launched
  | submit e => exact h.calm
  | completeCall call result => exact (s.aside_completing call result).calm h.calm
  | fireTimers now => exact (s.aside_firing now).calm h.calm
  | abort id reason =>
    exact h.calm.survivors (Cascade.survivors_terminate (c := s.openCascade) h.sound id _ true)

/-- An operation that is no turn lets no instance begin. -/
theorem survivors_idle (s : Session) (o : Operation) : s.Survivors (s.idle o) := by
  cases o with
  | close reason =>
    show s.Survivors (s.close reason)
    unfold close
    split
    · exact .refl s
    · intro id i hi
      cases hi
  | _ => exact .of_eq rfl

/-- After every operation nothing runs. -/
theorem rests_apply (h : s.Rests) (o : Operation) : (s.apply o).Rests := by
  have path := path_history h.sound o
  refine ⟨path.passes_sound h.sound, path.passes_linked h.sound h.linked, ?_⟩
  rw [apply_eq]
  cases ht : s.turn? o with
  | none =>
    have survivors : s.Survivors (s.idle o).openCascade.toSession := s.survivors_idle o
    exact h.calm.survivors survivors
  | some t =>
    obtain ⟨ms, c⟩ := t
    have begun := path_turn? h.sound ht
    have hs := begun.passes_sound h.sound
    have settled := Cascade.aside_settle c
    exact Cascade.calm_drain _ ((Cascade.Passes.aside settled).sound hs)
      ((Cascade.Passes.aside settled).linked hs (begun.passes_linked h.sound h.linked))
      (settled.calm (calm_turn? h ht))

theorem rests_applyAll (h : s.Rests) (os : List Operation) : (s.applyAll os).Rests := by
  induction os generalizing s with
  | nil => exact h
  | cons o rest ih => exact ih (rests_apply h o)

theorem rests_new (name : String) (library : FlowLibrary) (limits : Limits) (context : Params) :
    (new name library limits context).Rests :=
  ⟨sound_new name library limits context, linked_new name library limits context,
    fun _ _ h => by cases h⟩

/-- A session in which nothing runs is at rest. -/
theorem Rests.atRest (h : s.Rests) : s.AtRest s.limits where
  live id i hi := by
    have hsi := h.sound.instances id i hi
    have live := hsi.live
    -- What is live is either running or suspended, and nothing runs.
    cases hp : i.phase with
    | running => exact absurd (h.calm id i hi hp) List.not_mem_nil
    | waiting w =>
      obtain ⟨place, sel, hsel, kinds, timer⟩ := (hsi.waits w hp).fits
      exact ⟨⟨w, sel, hp, place, place ▸ hsel, kinds, timer⟩, hsi.bound⟩
    | completed =>
      rw [hp] at live
      cases live
    | aborted reason =>
      rw [hp] at live
      cases live
  apart id := by
    cases hi : s.instances.get? id with
    | none => exact .inl rfl
    | some i => exact .inr (h.sound.instances id i hi).unarchived
  ended id i hi := by
    -- Only what has ended is archived, in one way or the other.
    have ended := (h.sound.archive id i hi).2.1
    cases hp : i.phase with
    | completed => exact .inl rfl
    | aborted reason => exact .inr ⟨reason, rfl⟩
    | running =>
      rw [hp] at ended
      cases ended
    | waiting w =>
      rw [hp] at ended
      cases ended
  archiveSize := h.sound.archiveSize
  allocated id i hi := by
    rcases Option.or_eq_some_iff.1 hi with hi | ⟨-, hi⟩
    · exact (h.sound.instances id i hi).begun
    · exact (h.sound.archive id i hi).2.2

/-- Every run ends at rest, whatever the flows, the bounds and the operations are. -/
theorem atRest_applyAll (name : String) (library : FlowLibrary) (limits : Limits)
    (context : Params) (os : List Operation) :
    ((new name library limits context).applyAll os).AtRest limits := by
  have rests := rests_applyAll (rests_new name library limits context) os
  have kept : ((new name library limits context).applyAll os).limits = limits :=
    (path_historyOf (sound_new name library limits context) os).passes_limits
  have atRest := rests.atRest
  rwa [kept] at atRest

end Session

end Dialogue
