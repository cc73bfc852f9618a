import Dialogue.Proofs.Session.Delivery
import Dialogue.Proofs.Session.Suspension

/-!
# Deliveries leave the others alone

A delivery concerns those who take the event, and those whose patterns are broken. Many things may
happen to them: they go on, start others, end, fail, or run out of budget. All of that touches only
what stands below one of them, so every other instance stays where it is.

What is left alone is described by a set of instances. It is guarded if with an instance that may
not outlive its parent it has the parent. Ending an instance ends only what stands below it, so who
does not belong to a guarded set cannot take down anyone of it; and what begins does not belong to
it, because it is new. A set is sheltered if, moreover, all of its instances are suspended, for then
whoever acts does not belong to it.

## Main definitions

* `Instance.Unmoved`, `Cascade.Spares` — being left alone
* `Cascade.Guards` — a set of instances that nobody else can take down
* `Cascade.Shelters` — such a set of which nobody acts
* `Cascade.IsAborted` — an instance that has been ended early

## Main results

* `Cascade.spares_terminate`, `Cascade.spares_runStack`, `Cascade.spares_resume` — nothing that is
  done by an instance of which none of a set stands below concerns the set
* `Cascade.isAborted_deliver` — instances with broken patterns are ended early
* `Session.delivery_isolated` — a delivery concerns nobody but those who take the event, those with
  broken patterns, and what stands below them
-/

namespace Dialogue

open Relation (ReflTransGen)

/-! ## Sheltered instances -/

/-- An instance is where it was. Only what ties it to others may have changed. -/
structure Instance.Unmoved (i i' : Instance) : Prop where
  flow : i'.flow = i.flow
  pc : i'.pc = i.pc
  locals : i'.locals = i.locals
  phase : i'.phase = i.phase
  depth : i'.depth = i.depth

theorem Instance.Unmoved.refl (i : Instance) : i.Unmoved i := ⟨rfl, rfl, rfl, rfl, rfl⟩

theorem Instance.Unmoved.trans {i i' i'' : Instance} (h : i.Unmoved i') (h' : i'.Unmoved i'') :
    i.Unmoved i'' :=
  ⟨h'.flow.trans h.flow, h'.pc.trans h.pc, h'.locals.trans h.locals, h'.phase.trans h.phase,
    h'.depth.trans h.depth⟩

theorem Instance.Left.unmoved {s : Session} {i i' : Instance} (h : i.Left s i') : i.Unmoved i' :=
  ⟨h.flow, h.pc, h.locals, h.phase, h.depth⟩

theorem Instance.Grown.unmoved {i i' : Instance} (h : i.Grown i') : i.Unmoved i' := by
  obtain ⟨more, rfl⟩ := h
  exact ⟨rfl, rfl, rfl, rfl, rfl⟩

namespace Cascade

variable {P : InstanceId → Prop} {c c' c'' : Cascade} {id : InstanceId} {i : Instance} {w : Wait}
  {e : Event}

/-- The instances of a set stay live and are where they were. -/
def Spares (P : InstanceId → Prop) (c c' : Cascade) : Prop :=
  ∀ k i, P k → c.instances.get? k = some i → ∃ i', c'.instances.get? k = some i' ∧ i.Unmoved i'

theorem Spares.of_eq (h : c'.instances = c.instances) : Spares P c c' :=
  fun _ i _ hi => ⟨i, h ▸ hi, .refl i⟩

theorem Spares.refl (P : InstanceId → Prop) (c : Cascade) : Spares P c c := .of_eq rfl

theorem Spares.trans (h : Spares P c c') (h' : Spares P c' c'') : Spares P c c'' := by
  intro k i hk hi
  obtain ⟨i', hi', u⟩ := h k i hk hi
  obtain ⟨i'', hi'', u'⟩ := h' k i' hk hi'
  exact ⟨i'', hi'', u.trans u'⟩

/-- A set of instances that nobody else can take down. -/
structure Guards (P : InstanceId → Prop) (c : Cascade) : Prop where
  sound : c.toSession.Sound
  kinship : c.toSession.Kinship
  begun : ∀ k, P k → k.number ≤ c.created
  above : ∀ k i p, P k → c.instances.get? k = some i → i.parent = some p →
    i.isDetached = false → P p

/-- What is guarded stays so in the course of time. -/
theorem Guards.later (h : Guards P c) (sound : c'.toSession.Sound) (kinship : c'.toSession.Kinship)
    (l : c.toSession.Later c'.toSession) : Guards P c' where
  sound
  kinship
  begun k hk := Nat.le_trans (h.begun k hk) l.created
  above k i' p hk hi' hp hd := by
    obtain ⟨i, hi, hd', hp', -⟩ := l.instances k i' (h.begun k hk) hi'
    have attached := hd'.symm.trans hd
    exact h.above k i p hk hi ((hp' attached).symm.trans hp) attached

theorem Guards.change (h : Guards P c) (ch : c.Change c') : Guards P c' :=
  h.later (ch.sound h.sound) (ch.kinship h.sound h.kinship) ch.later

theorem Guards.changes (h : Guards P c) (changes : Changes c c') : Guards P c' := by
  induction changes with
  | refl => exact h
  | tail _ last ih => exact ih.change last

/-- A set of instances that nobody else can take down, and that have nothing to do. -/
structure Shelters (P : InstanceId → Prop) (c : Cascade) : Prop extends Guards P c where
  waits : ∀ k i, P k → c.instances.get? k = some i → ∃ w, i.wait? = some w

/-- What is sheltered stays so in the course of time, unless it is woken. -/
theorem Shelters.later (h : Shelters P c) (sound : c'.toSession.Sound)
    (kinship : c'.toSession.Kinship) (l : c.toSession.Later c'.toSession)
    (waits : ∀ k w, P k → c.toSession.waitOf? k = some w →
      c'.toSession.waitOf? k = some w ∨ c'.instances.get? k = none) : Shelters P c' where
  toGuards := h.toGuards.later sound kinship l
  waits k i' hk hi' := by
    obtain ⟨i, hi, -⟩ := l.instances k i' (h.begun k hk) hi'
    obtain ⟨w, hw⟩ := h.waits k i hk hi
    have waiting : c.toSession.waitOf? k = some w := Option.bind_eq_some_iff.2 ⟨i, hi, hw⟩
    rcases waits k w hk waiting with still | gone
    · obtain ⟨j, hj, hw'⟩ := Option.bind_eq_some_iff.1 still
      obtain rfl := Option.some.inj (hi'.symm.trans hj)
      exact ⟨w, hw'⟩
    · rw [hi'] at gone
      cases gone

theorem Shelters.change (h : Shelters P c) (ch : c.Change c') : Shelters P c' :=
  h.later (ch.sound h.sound) (ch.kinship h.sound h.kinship) ch.later
    fun _ _ _ hw => ch.waits h.sound hw

theorem Shelters.changes (h : Shelters P c) (changes : Changes c c') : Shelters P c' := by
  induction changes with
  | refl => exact h
  | tail _ last ih => exact ih.change last

theorem Shelters.suspends (h : Shelters P c) (s : c.Suspends id w c') : Shelters P c' := by
  refine h.later (s.sound h.sound) (s.kinship h.kinship) s.later fun k w' _ hw => .inl ?_
  -- A suspended instance is not suspended anew.
  have other : k ≠ id := by
    rintro rfl
    obtain ⟨live, running, -⟩ := s
    rw [Session.waitOf?, live, Option.bind_some, Instance.wait?_of_running running] at hw
    cases hw
  rwa [s.waitOf?_of_ne other]

theorem Shelters.wakes (h : Shelters P c) (s : c.Wakes id w c') (hn : ¬ P id) : Shelters P c' := by
  refine h.later (s.sound h.sound) (s.kinship h.kinship) s.later fun k w' hk hw => .inl ?_
  rwa [s.waitOf?_of_ne fun heq => hn (heq ▸ hk)]

/-- A set remains sheltered as long as none of its instances is woken. -/
theorem Shelters.path {ms : List Moment} (h : Shelters P c) (p : Path Change c ms c')
    (hn : ∀ k ∈ Moment.wakings ms, ¬ P k) : Shelters P c' := by
  induction p with
  | nil => exact h
  | change ch _ ih => exact ih (h.change ch) hn
  | @moment _ _ _ m ms happens _ ih =>
    cases happens with
    | suspended s => exact ih (h.suspends s) hn
    | woken s giving =>
      have first := hn _ List.mem_cons_self
      exact ih ((h.wakes s first).changes giving) fun k hk => hn k (List.mem_cons_of_mem _ hk)
    | delivered => exact ih h hn

/-- Whatever does not wait is not sheltered. -/
theorem Shelters.not_of_awake (h : Shelters P c) (hi : c.instances.get? id = some i)
    (awake : i.wait? = none) : ¬ P id := by
  intro hp
  obtain ⟨w, hw⟩ := h.waits id i hp hi
  rw [awake] at hw
  cases hw

/-! ## Ending others -/

theorem Ends.spares (h : c.Ends id c') (hn : ¬ P id) : Spares P c c' := by
  intro k i hk hi
  have other : k ≠ id := fun heq => hn (heq ▸ hk)
  obtain ⟨i', hi'⟩ := Option.isSome_iff_exists.1 (h.spared k other (by rw [hi]; rfl))
  obtain ⟨i₀, hi₀, left⟩ := h.survivors k i' hi'
  obtain rfl := Option.some.inj (hi.symm.trans hi₀)
  exact ⟨i', hi', left.unmoved⟩

theorem spares_foldl_abort (error : InstanceId → FlowError) (ids : List InstanceId)
    (hs : c.toSession.Sound) (hn : ∀ k ∈ ids, ¬ P k) :
    Spares P c (ids.foldl (fun c id => c.abort id (error id)) c) := by
  induction ids generalizing c with
  | nil => exact .refl P c
  | cons id rest ih =>
    have first : Spares P c (c.abort id (error id)) := by
      cases hi : c.instances.get? id with
      | none => exact .of_eq (by simp [abort, hi])
      | some i => exact (ends_abort hi (hs.id_eq hi) _).spares (hn id List.mem_cons_self)
    have hs₁ := (removes_abort hs id (error id)).1.sound hs
    exact first.trans (ih hs₁ fun k hk => hn k (List.mem_cons_of_mem _ hk))

/-- Nothing that is guarded goes down with an instance that is not. -/
theorem Guards.not_of_mem_subtree (h : Guards P c) (hn : ¬ P id) :
    ∀ k ∈ Instance.subtree c.instances [id], ¬ P k := by
  refine Instance.subtree_induction (by simpa using hn) fun p i hi hp k hk guarded => ?_
  obtain ⟨j, hj, parent, attached⟩ := h.kinship.listed p i k hi hk
  exact hp (h.above k j p guarded hj parent attached)

theorem spares_terminate (h : Guards P c) (hn : ¬ P id) (error : FlowError)
    (isReported : Bool) : Spares P c (c.terminate id error isReported) := by
  unfold terminate
  split
  · exact .refl P c
  · next i _ =>
    let c₁ : Cascade := { c with
      failures := if isReported then c.failures.push ⟨id, i.flowName, error⟩ else c.failures }
    have noted : Spares P c c₁ := .of_eq rfl
    exact noted.trans (spares_foldl_abort (c := c₁) _ _ h.sound (h.not_of_mem_subtree hn))

theorem Guards.terminate (h : Guards P c) (id : InstanceId) (error : FlowError)
    (isReported : Bool) : Guards P (c.terminate id error isReported) :=
  h.changes (changes_terminate h.sound id error isReported)

theorem Shelters.terminate (h : Shelters P c) (id : InstanceId) (error : FlowError)
    (isReported : Bool) : Shelters P (c.terminate id error isReported) :=
  h.changes (changes_terminate h.sound id error isReported)

/-- A set is spared by a list of steps if each of them spares it and keeps what is needed for
that. -/
theorem spares_foldl {α : Type} {f : Cascade → α → Cascade} {as : List α} {J : Cascade → Prop}
    (h : J c) (step : ∀ a ∈ as, ∀ d, J d → Spares P d (f d a) ∧ J (f d a)) :
    Spares P c (as.foldl f c) := by
  induction as generalizing c with
  | nil => exact .refl P c
  | cons a rest ih =>
    obtain ⟨spared, kept⟩ := step a List.mem_cons_self c h
    exact spared.trans (ih kept fun b hb => step b (List.mem_cons_of_mem _ hb))

theorem spares_complete (h : Guards P c) (hi : c.instances.get? id = some i)
    (awake : i.wait? = none) (hn : ¬ P id) : Spares P c (c.complete id) := by
  have hid := h.sound.id_eq hi
  have ends := ends_conclude hi hid awake
  -- The children are ended one after the other, when their parent has ended already.
  have concluded : Guards P (c.conclude i) :=
    h.later (ends.sound h.sound) (ends.kinship h.kinship) ends.later
  have children : ∀ k ∈ i.children, ¬ P k := fun k hk guarded => by
    obtain ⟨j, hj, parent, attached⟩ := h.kinship.listed id i k hi hk
    exact hn (h.above k j id guarded hj parent attached)
  rw [complete_eq hi hid]
  exact (ends.spares hn).trans (spares_foldl concluded fun k hk d hd =>
    ⟨spares_terminate hd (children k hk) _ _, hd.terminate k _ _⟩)

/-! ## Running -/

theorem spares_change (hn : ¬ P id) (f : Instance → Instance) : Spares P c (c.change id f) := by
  intro k i hk hi
  have other : k ≠ id := fun heq => hn (heq ▸ hk)
  refine ⟨i, ?_, .refl i⟩
  rw [change, Table.get?_modify, if_neg other, hi]

theorem spares_spawn {flow args parent isDetached} (begun : ∀ k, P k → k.number ≤ c.created)
    (h : c.spawn flow args parent isDetached = some (id, c')) : Spares P c c' := by
  obtain ⟨compiled, depth, rfl, hget, -⟩ := get?_spawn h
  intro k i hk hi
  -- What is spared has begun before.
  rw [hget, if_neg (Id.ne_next (begun k hk)), hi]
  refine ⟨_, rfl, ?_⟩
  split <;> exact ⟨rfl, rfl, rfl, rfl, rfl⟩

theorem Expands.spares {owner : InstanceId} {isNew : InstanceId → Prop}
    (h : Expands owner isNew c c') : Spares P c c' := by
  intro k i _ hi
  obtain ⟨i', hi', grown⟩ := h.old k i hi
  exact ⟨i', hi', grown.unmoved⟩

theorem spares_suspended (hn : ¬ P i.id) (c : Cascade) (arms : List Armed)
    (deadline : Option Instant) : Spares P c (c.suspended i arms deadline) := by
  obtain ⟨timer, timers, eq⟩ := exists_suspended_eq c i arms deadline
  have timed : Spares P c { c with timers } := .of_eq rfl
  rw [eq]
  exact timed.trans (spares_change hn _)

theorem spares_execute {instr : Instr} {r : Except FlowError (List InstanceId)} (h : Guards P c)
    (hi : c.instances.get? i.id = some i) (awake : i.wait? = none) (hn : ¬ P i.id)
    (done : c.execute i instr = (c', r)) : Spares P c c' := by
  have live : (c.instances.get? i.id).isSome := by rw [hi]; rfl
  cases carriesOut_execute done with
  | unbound | beyond | abort => exact .refl P c
  | stall failed => exact (armAll_error h.sound live failed).2.spares
  | suspend _ armed =>
    exact (armAll_ok h.sound live armed).2.1.spares.trans (spares_suspended hn _ _ _)
  | @send event _ values =>
    have said : Spares P c (c.produce (some (i.id, i.depth)) (Event.new event values)) := .of_eq rfl
    exact said.trans (spares_change hn _)
  | missing => exact spares_change hn _
  | start _ spawned =>
    have moved : Spares P c (c.goto i.id (i.pc + 1)) := spares_change hn _
    exact moved.trans (spares_spawn h.begun spawned)
  | @share var _ v =>
    have bound : Spares P c { c with context := c.context.insert var v } := .of_eq rfl
    exact bound.trans (spares_change hn _)
  | bind => exact (spares_change hn _).trans (spares_change hn _)
  | branch | jump => exact spares_change hn _
  | finish => exact spares_complete h hi awake hn

/-- A step touches nothing that is guarded against the instance that makes it. -/
theorem spares_step (h : Guards P c) (hi : c.instances.get? i.id = some i)
    (hr : i.phase = .running) (hn : ¬ P i.id) : Spares P c (c.step i).1 := by
  have awake := Instance.wait?_of_running hr
  unfold step
  split
  · next done => exact spares_execute h hi awake hn done
  · next failed =>
    have guards := h.changes (execute_error h.sound hi hr failed).changes
    exact (spares_execute h hi awake hn failed).trans (spares_terminate guards hn _ true)

theorem Shelters.step (h : Shelters P c) (hi : c.instances.get? i.id = some i)
    (hr : i.phase = .running) : Shelters P (c.step i).1 := by
  refine h.path (path_step h.sound hi hr) fun k hk => ?_
  rw [(onlySuspends_stepHistory c i).wakings] at hk
  cases hk

/-- What has run out of budget is ended, and it is not sheltered, since it runs. -/
theorem spares_exhaust (h : Shelters P c) (hn : ¬ P id) (stack : List InstanceId) :
    Spares P c (c.exhaust id stack) := by
  have endRunning : ∀ k d, Shelters P d →
      Spares P d (d.endRunning (.stepLimit c.limits.activationSteps) k) ∧
        Shelters P (d.endRunning (.stepLimit c.limits.activationSteps) k) := by
    intro k d hd
    refine ⟨?_, hd.changes (changes_endRunning hd.sound _ k)⟩
    unfold Cascade.endRunning
    split
    · next j hj =>
      split
      · exact .refl P d
      · next awake =>
        have hw : j.wait? = none := by simpa [Instance.isWaiting] using awake
        exact spares_terminate hd.toGuards (hd.not_of_awake hj hw) _ false
    · exact .refl P d
  rw [exhaust_eq]
  exact (spares_terminate h.toGuards hn _ true).trans
    (spares_foldl (h.terminate id _ true) fun k _ => endRunning k)

/-- An activation touches nothing that is sheltered. -/
theorem spares_runStack {root : InstanceId} (hn : ¬ P root) : ∀ (budget : Nat)
    (stack : List InstanceId) {c : Cascade}, Shelters P c →
      Spares P c (runStack root budget stack c)
  | budget, stack, c, h => by
    unfold runStack
    split
    · exact .refl P c
    · next i rest hfirst =>
      obtain ⟨id, hi, hr, -⟩ := firstRunning?_eq_some hfirst
      obtain rfl := h.sound.id_eq hi
      cases budget with
      | zero => exact spares_exhaust h hn _
      | succ budget =>
        have acts := h.not_of_awake hi (Instance.wait?_of_running hr)
        exact (spares_step h.toGuards hi hr acts).trans
          (spares_runStack hn budget _ (h.step hi hr))

/-! ## Resolving a wait -/

/-- What an instance gives up stands below it. -/
theorem spares_giveUp {a : Armed} (h : Shelters P c) (hn : ¬ P id)
    (own : c.toSession.Awaits id [a]) : Spares P c (c.giveUp a) := by
  cases a with
  | event => exact .refl P c
  | child k =>
    cases hk : c.instances.get? k with
    | none => exact .of_eq (by rw [giveUp, terminate_eq_self hk])
    | some j =>
      obtain ⟨parent, attached⟩ := (own k List.mem_cons_self).2 j hk
      have other : ¬ P k := fun hp => hn (h.above k j id hp hk parent attached)
      exact spares_terminate h.toGuards other _ false
  | call k => exact .of_eq rfl

theorem spares_giveUpAll (kept : Option Nat) (hn : ¬ P id) : ∀ (arms : List Armed) (index : Nat)
    {c : Cascade}, Shelters P c → Owns id arms c → c.toSession.Awaits id arms →
      Spares P c (c.giveUpAll kept index arms)
  | [], _, c, _, _, _ => .refl P c
  | a :: rest, index, c, h, owns, own => by
    obtain ⟨changes, spared⟩ : Changes c (if kept = some index then c else c.giveUp a) ∧
        Spares P c (if kept = some index then c else c.giveUp a) := by
      split
      · exact ⟨.refl, .refl P c⟩
      · have single : Owns id [a] c := owns.changes .refl (by simp)
        have first : c.toSession.Awaits id [a] := fun k hk =>
          own k (List.mem_singleton.1 hk ▸ List.mem_cons_self)
        exact ⟨(giveUp_spec h.sound single).1, spares_giveUp h hn first⟩
    have others : c.toSession.Awaits id rest := fun k hk => own k (List.mem_cons_of_mem _ hk)
    exact spared.trans (spares_giveUpAll kept hn rest (index + 1) (h.changes changes)
      (owns.changes changes fun b hb => List.mem_cons_of_mem a hb)
      (others.later (Changes.later changes)))

theorem spares_disarm (h : Shelters P c) (own : c.toSession.AwaitsOwn)
    (hi : c.instances.get? id = some i) (hw : i.wait? = some w) (hn : ¬ P id)
    (kept : Option Nat) : Spares P c (c.disarm i kept) := by
  obtain rfl := h.sound.id_eq hi
  have wakes := wakes_awaken hi hw
  have awaits := own i.id w (Option.bind_eq_some_iff.2 ⟨i, hi, hw⟩)
  have awoken : Spares P c (c.awaken i w) := by
    intro k j hk hj
    have other : k ≠ i.id := fun heq => hn (heq ▸ hk)
    exact ⟨j, (Table.get?_insert_of_ne other).trans hj, .refl j⟩
  rw [disarm_eq hi hw]
  exact awoken.trans (spares_giveUpAll kept hn w.arms 0 (h.wakes wakes hn)
    (owns_awaken h.sound hi hw) (awaits.later wakes.later))

theorem Disarms.shelters {kept : Option Nat} (d : Disarms c id w kept c') (h : Shelters P c)
    (hn : ¬ P id) : Shelters P c' := by
  obtain ⟨c₁, wakes, changes, -⟩ := d.wakes
  exact (h.wakes wakes hn).changes changes

theorem spares_advance (h : Shelters P c) (awake : c.toSession.waitOf? id = none) (hn : ¬ P id)
    (pc : Nat) (bindings : Params) : Spares P c (c.advance id pc bindings) := by
  have moved := h.changes (goesOn_relocate h.sound awake pc bindings).changes
  rw [advance_eq]
  exact (spares_change hn _).trans (spares_runStack hn _ _ moved)

theorem Resumes.spares {r : Resolution} {ms : List Moment} (resumes : Resumes c id r c' ms)
    (h : Shelters P c) (own : c.toSession.AwaitsOwn) (hn : ¬ P id) : Spares P c c' := by
  cases resumes with
  | stays => exact .refl P c
  | ends => exact spares_terminate h.toGuards hn _ true
  | advances hi hw =>
    have d := disarms h.sound hi hw r.kept?
    exact (spares_disarm h own hi hw hn r.kept?).trans
      (spares_advance (d.shelters h hn) d.awake hn _ _)
  | fails hi hw =>
    have d := disarms h.sound hi hw none
    exact (spares_disarm h own hi hw hn none).trans
      (spares_terminate (d.shelters h hn).toGuards hn _ true)

/-- The end of a wait touches nothing that is sheltered, whatever comes of it. -/
theorem spares_resume (h : Shelters P c) (own : c.toSession.AwaitsOwn) (hn : ¬ P id)
    (r : Resolution) : Spares P c (c.resume id r) :=
  (resumes c id r).spares h own hn

theorem spares_foldl_resume (h : Shelters P c) (own : c.toSession.AwaitsOwn)
    {rs : List (InstanceId × Resolution)} (hn : ∀ r ∈ rs, ¬ P r.1) :
    Spares P c (rs.foldl (fun c r => c.resume r.1 r.2) c) := by
  induction rs generalizing c with
  | nil => exact .refl P c
  | cons r rest ih =>
    have first := hn r List.mem_cons_self
    have path := path_resume h.sound r.1 r.2
    have sheltered : Shelters P (c.resume r.1 r.2) := by
      refine h.path path fun k hk => ?_
      obtain rfl := List.mem_singleton.1 ((resumes c r.1 r.2).moments.2.subset hk)
      exact first
    have awaits := (path.mono fun _ _ => .change).passes_awaitsOwn h.sound own
    exact (spares_resume h own first r.2).trans
      (ih sheltered awaits fun r' hr' => hn r' (List.mem_cons_of_mem _ hr'))

theorem spares_purge (h : Guards P c) (hn : ∀ b ∈ c.broken e, ¬ P b.1) : Spares P c (c.purge e) :=
  spares_foldl h fun b hb _ hd =>
    ⟨spares_terminate hd (hn b hb) b.2 true, hd.terminate b.1 b.2 true⟩

/-! ## Who stands apart -/

/-- The live instances that stand below none of some instances. -/
def Apart (c : Cascade) (A : InstanceId → Prop) (k : InstanceId) : Prop :=
  (c.instances.get? k).isSome ∧ ∀ a, A a → ¬ c.toSession.Attached a k

theorem not_apart_self {A : InstanceId → Prop} {a : InstanceId} (h : A a) : ¬ c.Apart A a :=
  fun apart => apart.2 a h .root

/-- Those who stand apart cannot be taken down by the others. -/
theorem shelters_apart (h : c.Ready) (A : InstanceId → Prop) : Shelters (c.Apart A) c where
  sound := h.orderly.sound
  kinship := h.orderly.kinship
  begun k hk := by
    obtain ⟨i, hi⟩ := Option.isSome_iff_exists.1 hk.1
    exact (h.orderly.sound.instances k i hi).begun
  above k i p hk hi hp hd := by
    obtain ⟨j, hj, -⟩ := h.orderly.linked k i p hi hp hd
    exact ⟨by rw [hj]; rfl, fun a ha above => hk.2 a ha (.child above hi hp hd)⟩
  waits k i _ hi := by
    -- Nothing runs, so whatever is live is suspended.
    have live := (h.orderly.sound.instances k i hi).live
    cases hw : i.wait? with
    | some w => exact ⟨w, rfl⟩
    | none =>
      have running := running_of_awake h.orderly.sound hi (by simp [Session.waitOf?, hi, hw])
      exact absurd (h.calm k i hi running) List.not_mem_nil

/-- An event concerns an instance if it takes it or cannot evaluate its patterns for it. -/
def Concerns (c : Cascade) (e : Event) (id : InstanceId) : Prop :=
  c.IsAddressed e id ∨ c.Wins e id ∨ c.IsBroken e id

theorem concerns_of_mem_broken (hs : c.toSession.Sound) {b : InstanceId × FlowError}
    (h : b ∈ c.broken e) : c.Concerns e b.1 := by
  obtain ⟨i, hi, hc⟩ := (mem_broken_iff hs).1 h
  exact .inr (.inr ⟨i, b.2, hi, hc⟩)

theorem concerns_of_mem_consumers (hs : c.toSession.Sound) {r : InstanceId × Resolution}
    (h : r ∈ c.consumers e) : c.Concerns e r.1 := by
  rcases (mem_consumers_iff hs).1 h with h | ⟨w, hw, hid, -⟩
  · obtain ⟨i, hi, -, hc⟩ := (mem_candidates_iff hs).1 h
    exact .inl ⟨i, r.2, hi, hc⟩
  · exact .inr (.inl ⟨w, wins_of_mem_winners hs hw, hid⟩)

/-- A delivery leaves alone what stands below nobody whom the event concerns. -/
theorem spares_deliver (h : c.Ready) (e : Event) :
    Spares (c.Apart (c.Concerns e)) c (c.deliver e) := by
  have hs := h.orderly.sound
  have sheltered := shelters_apart h (c.Concerns e)
  have purge := changes_purge hs e
  have awaits := ((Path.of_changes purge).orderly h.orderly).awaitsOwn
  have purged : Spares (c.Apart (c.Concerns e)) c (c.purge e) :=
    spares_purge sheltered.toGuards fun b hb => not_apart_self (concerns_of_mem_broken hs hb)
  rw [deliver_eq]
  exact purged.trans (spares_foldl_resume (sheltered.changes purge) awaits fun r hr =>
    not_apart_self (concerns_of_mem_consumers hs hr))

/-! ## Instances with broken patterns -/

/-- An instance has been ended early: it is not live, its failure is gathered to be announced, and
if it is remembered, then as one that was ended early. -/
structure IsAborted (c : Cascade) (id : InstanceId) : Prop where
  gone : c.instances.get? id = none
  announced : ∃ e : Event, ⟨none, e⟩ ∈ c.produced ∧ e.name = EventName.flowFailed ∧
    e.parameter? "instance_id" = some (.ofNat id.number)
  remembered : ∀ i, c.archive.get? id = some i → ∃ reason, i.phase = .aborted reason

/-- What has been ended early stays so if nothing that is gathered is lost, and if it is not
remembered as something else. -/
theorem IsAborted.of_frame (h : c.IsAborted id) (gone : c'.instances.get? id = none)
    (produced : ∀ p ∈ c.produced, p ∈ c'.produced)
    (archive : ∀ i, c'.archive.get? id = some i → c.archive.get? id = some i) :
    c'.IsAborted id := by
  obtain ⟨e, he, told⟩ := h.announced
  exact ⟨gone, ⟨e, produced _ he, told⟩, fun i hi => h.remembered i (archive i hi)⟩

theorem IsAborted.ends {k : InstanceId} (h : c.IsAborted id) (ends : c.Ends k c') :
    c'.IsAborted id := by
  obtain ⟨_, -, -, archive⟩ := ends.archive
  obtain ⟨_, -, -, produced⟩ := ends.announced
  refine h.of_frame (ends.survivors.gone h.gone) (fun p hp => by simp [produced, hp])
    fun i hi => ?_
  -- Another instance has ended, for this one is not live.
  have other : id ≠ k := by
    rintro rfl
    have live := ends.live
    rw [h.gone] at live
    cases live
  rw [archive] at hi
  exact (Table.get?_insert_of_ne other).symm.trans (Table.get?_of_keepLast hi)

theorem IsAborted.removes (h : c.IsAborted id) (removes : Removes c c') : c'.IsAborted id := by
  induction removes with
  | refl => exact h
  | tail _ last ih =>
    obtain ⟨k, ends⟩ := last
    exact ih.ends ends

theorem IsAborted.change (h : c.IsAborted id) (begun : id.number ≤ c.created)
    (ch : c.Change c') : c'.IsAborted id := by
  have gone := ch.later.gone begun h.gone
  cases ch with
  | note _ _ _ kept _ => exact h.of_frame gone kept fun _ hi => hi
  | begin hspawn _ =>
    obtain ⟨-, archive, -, -, -, -, p, produced⟩ := spawn_frame hspawn
    exact h.of_frame gone (fun q hq => by simp [produced, hq]) fun i hi => archive ▸ hi
  | prune prunes => exact h.removes prunes.removes
  | _ => exact h.of_frame gone (fun _ hp => hp) fun _ hi => hi

theorem IsAborted.path {ms : List Moment} (h : c.IsAborted id) (begun : id.number ≤ c.created)
    (p : Path Change c ms c') : c'.IsAborted id := by
  have kept : c'.IsAborted id ∧ id.number ≤ c'.created := by
    refine p.induct (P := fun c => c.IsAborted id ∧ id.number ≤ c.created) ⟨h, begun⟩
      (fun c d ch hc => ⟨hc.1.change hc.2 ch, Nat.le_trans hc.2 ch.later.created⟩)
      (fun c d k w s hc => ?_) fun c d k w s hc => ?_
    · have gone := s.later.gone hc.2 hc.1.gone
      obtain ⟨-⟩ := s
      exact ⟨hc.1.of_frame gone (fun _ hp => hp) fun _ hi => hi, hc.2⟩
    · have gone := s.later.gone hc.2 hc.1.gone
      obtain ⟨-⟩ := s
      exact ⟨hc.1.of_frame gone (fun _ hp => hp) fun _ hi => hi, hc.2⟩
  exact kept.1

theorem isAborted_abort (hi : c.instances.get? id = some i) (hid : i.id = id)
    (error : FlowError) : (c.abort id error).IsAborted id := by
  refine ⟨(ends_abort hi hid error).gone, ⟨Event.of EventName.flowFailed
    [("flow", .string i.flowName), ("instance_id", .ofNat id.number),
      ("reason", .string error.message)], ?_, rfl, ?_⟩, fun j hj => ?_⟩
  · simp [abort, hi, unlink_eq, notify, produce, retire]
  · simp [Event.of, Event.new, Event.parameter?, Table.ofList, Table.get?_insert]
  · subst hid
    have archived : (c.abort i.id error).archive =
        (c.archive.insert i.id { i with phase := .aborted error.message }).keepLast
          c.limits.archiveSize := by
      simp [abort, hi, unlink_eq, notify, produce, retire]
    rw [archived] at hj
    have hj := Table.get?_of_keepLast hj
    rw [Table.get?_insert_self] at hj
    exact ⟨error.message, Option.some.inj hj ▸ rfl⟩

/-- Whatever goes down while instances are ended early has been ended early. -/
theorem isAborted_foldl_abort (error : InstanceId → FlowError) (ids : List InstanceId)
    (hs : c.toSession.Sound) (live : (c.instances.get? id).isSome)
    (gone : (ids.foldl (fun c id => c.abort id (error id)) c).instances.get? id = none) :
    (ids.foldl (fun c id => c.abort id (error id)) c).IsAborted id := by
  induction ids generalizing c with
  | nil =>
    rw [show c.instances.get? id = none from gone] at live
    cases live
  | cons k rest ih =>
    have first := (removes_abort hs k (error k)).1
    have more := removes_foldl_abort error rest (first.sound hs)
    -- Either it goes down with the first one, or it is still live then.
    by_cases still : ((c.abort k (error k)).instances.get? id).isSome
    · exact ih (first.sound hs) still gone
    · obtain ⟨i, hi⟩ := Option.isSome_iff_exists.1 live
      have same : id = k := by
        by_contra hne
        exact still (isSome_foldl_abort error [k] hs (by simpa using hne) live)
      subst same
      exact (isAborted_abort hi (hs.id_eq hi) (error id)).removes more.1

theorem isAborted_terminate (hs : c.toSession.Sound) {root : InstanceId} {error : FlowError}
    {isReported : Bool} (live : (c.instances.get? id).isSome)
    (gone : (c.terminate root error isReported).instances.get? id = none) :
    (c.terminate root error isReported).IsAborted id := by
  cases hi : c.instances.get? root with
  | none =>
    rw [terminate_eq_self hi] at gone
    rw [gone] at live
    cases live
  | some i =>
    simp only [terminate, hi] at gone ⊢
    exact isAborted_foldl_abort (c := { c with failures := _ }) _ _ hs live gone

/-- Instances are ended early, and nothing else happens. -/
structure EndsEarly (c c' : Cascade) : Prop where
  changes : Changes c c'
  survivors : c.toSession.Survivors c'.toSession
  aborted : ∀ k, (c.instances.get? k).isSome → c'.instances.get? k = none → c'.IsAborted k

theorem EndsEarly.refl (c : Cascade) : EndsEarly c c := by
  refine ⟨.refl, .refl _, fun k live gone => ?_⟩
  rw [gone] at live
  cases live

theorem EndsEarly.trans (hs : c.toSession.Sound) (h : EndsEarly c c') (h' : EndsEarly c' c'') :
    EndsEarly c c'' := by
  refine ⟨h.changes.trans h'.changes, h.survivors.trans h'.survivors, fun k live gone => ?_⟩
  obtain ⟨i, hi⟩ := Option.isSome_iff_exists.1 live
  have begun := Nat.le_trans (hs.instances k i hi).begun (Changes.later h.changes).created
  -- It ends in one of the two parts. What has been ended early by then stays so.
  cases hi' : c'.instances.get? k with
  | some i' => exact h'.aborted k (by rw [hi']; rfl) gone
  | none => exact (h.aborted k live hi').path begun (Path.of_changes h'.changes)

theorem endsEarly_terminate (hs : c.toSession.Sound) (root : InstanceId) (error : FlowError)
    (isReported : Bool) : EndsEarly c (c.terminate root error isReported) :=
  ⟨changes_terminate hs root error isReported, survivors_terminate hs root error isReported,
    fun _ live gone => isAborted_terminate hs live gone⟩

theorem endsEarly_foldl {α : Type} {f : Cascade → α → Cascade}
    (step : ∀ c, c.toSession.Sound → ∀ a, EndsEarly c (f c a)) (hs : c.toSession.Sound)
    (as : List α) : EndsEarly c (as.foldl f c) := by
  induction as generalizing c with
  | nil => exact .refl c
  | cons a rest ih =>
    have first := step c hs a
    exact first.trans hs (ih (Changes.sound first.changes hs))

theorem isAborted_foldl_terminate (hs : c.toSession.Sound) (bs : List (InstanceId × FlowError))
    (live : (c.instances.get? id).isSome)
    (gone : (bs.foldl (fun c b => c.terminate b.1 b.2 true) c).instances.get? id = none) :
    (bs.foldl (fun c b => c.terminate b.1 b.2 true) c).IsAborted id :=
  (endsEarly_foldl (fun _ hs b => endsEarly_terminate hs b.1 b.2 true) hs bs).aborted id live gone

/-- A delivery ends the instances whose patterns are broken. -/
theorem isAborted_deliver (hs : c.toSession.Sound) (h : c.IsBroken e id) :
    (c.deliver e).IsAborted id := by
  obtain ⟨i, err, hi, hc⟩ := h
  have broken : (id, err) ∈ c.broken e := (mem_broken_iff hs).2 ⟨i, hi, hc⟩
  have purge := changes_purge hs e
  have aborted : (c.purge e).IsAborted id :=
    isAborted_foldl_terminate hs _ (by rw [hi]; rfl) (get?_foldl_terminate hs broken)
  have begun := Nat.le_trans (hs.instances id i hi).begun (Changes.later purge).created
  rw [deliver_eq]
  exact aborted.path begun (path_foldl_resume (Changes.sound purge hs) (c.consumers e))

/-- An event that concerns nobody has no consequences. -/
theorem deliver_eq_self (hs : c.toSession.Sound) (h : ∀ id, ¬ c.Concerns e id) :
    c.deliver e = c := by
  have broken : c.broken e = [] :=
    List.eq_nil_iff_forall_not_mem.2 fun b hb => h b.1 (concerns_of_mem_broken hs hb)
  have consumers : c.consumers e = [] :=
    List.eq_nil_iff_forall_not_mem.2 fun r hr => h r.1 (concerns_of_mem_consumers hs hr)
  rw [deliver_eq, consumers, purge, broken]
  rfl

/-- If nothing has been produced, there is nothing to settle. -/
theorem settle_eq_self (h : c.produced = #[]) : c.settle = c := by
  obtain ⟨s, queue, produced, emitted, failures⟩ := c
  obtain rfl : produced = #[] := h
  simp [settle]

end Cascade

namespace Session

/-- Every delivery of a run concerns only the instances to which the event is addressed, those that
win it, and those whose patterns are broken. All that stands below none of these stays live where it
is, whatever happens to them, and those with broken patterns are ended early. An event that concerns
nobody changes nothing, and nothing follows from it. -/
theorem delivery_isolated (name : String) (library : FlowLibrary) (limits : Limits)
    (context : Params) (os : List Operation) (e : Event) (c : Cascade)
    (delivered : .delivered e c ∈ (new name library limits context).historyOf os) :
    (∀ id i, c.instances.get? id = some i →
      (∀ a, c.IsAddressed e a ∨ c.Wins e a ∨ c.IsBroken e a → ¬ c.toSession.Attached a id) →
        ∃ i', (c.deliver e).instances.get? id = some i' ∧ i'.pc = i.pc ∧ i'.locals = i.locals ∧
          i'.phase = i.phase ∧ i'.depth = i.depth) ∧
      (∀ id, c.IsBroken e id → (c.deliver e).IsAborted id) ∧
        ((∀ a, ¬ (c.IsAddressed e a ∨ c.Wins e a ∨ c.IsBroken e a)) →
          c.deliver e = c ∧ (c.deliver e).settle = c) := by
  have ready := ready_of_delivered (ready_new name library limits context) delivered
  have hs := ready.orderly.sound
  refine ⟨fun id i hi apart => ?_, fun id broken => Cascade.isAborted_deliver hs broken,
    fun nobody => ?_⟩
  · have live : (c.instances.get? id).isSome := by rw [hi]; rfl
    obtain ⟨i', hi', unmoved⟩ := Cascade.spares_deliver ready e id i ⟨live, apart⟩ hi
    exact ⟨i', hi', unmoved.pc, unmoved.locals, unmoved.phase, unmoved.depth⟩
  · have same := Cascade.deliver_eq_self hs nobody
    rw [same]
    exact ⟨rfl, Cascade.settle_eq_self ready.produced⟩

/-- A flow whose pattern refers to a variable that is not bound, with a flow below it that is meant
to answer, and another flow that would answer anything. -/
def guardedFlows : List FlowDefinition :=
  [⟨"guard", [], "", [.start "inner" ∅ false,
      .expect ⟨EventName.userSaid, Table.ofList [("text", .var "missing")], ∅, false⟩]⟩,
    ⟨"inner", [], "", [.expect ⟨EventName.userSaid,
      Table.ofList [("text", .literal (.string "hi"))], ∅, false⟩,
        .send EventName.botSay (Table.ofList [("text", .literal (.string "inner"))])]⟩,
    ⟨"other", [], "", [.expect ⟨EventName.userSaid, ∅, ∅, false⟩,
      .send EventName.botSay (Table.ofList [("text", .literal (.string "other"))])]⟩]

/-- The guard fails at what the user says, and the other flow, whose claim does not succeed, stays
where it is. -/
theorem delivery_isolated_guarded :
    ∃ library, FlowLibrary.ofDefinitions Vocabulary.standard guardedFlows = .ok library ∧
      ∃ e c i i', .delivered e c ∈ (new "session" library .standard ∅).historyOf
          [.start ["guard", "other"], .submit (.userSaid "hi")] ∧
        c.instances.get? ⟨3⟩ = some i ∧ (c.deliver e).instances.get? ⟨3⟩ = some i' ∧
          i'.phase = i.phase ∧ (c.deliver e).IsAborted ⟨1⟩ := by
  have run : (FlowLibrary.ofDefinitions Vocabulary.standard guardedFlows).toOption.any
      (fun library => ((new "session" library .standard ∅).historyOf
        [.start ["guard", "other"], .submit (.userSaid "hi")]).any (Moment.delivers fun e c =>
          ((c.instances.get? ⟨1⟩).any fun i => !(i.candidate? e (c.scope i)).isOk) &&
            ((c.instances.get? ⟨3⟩).any fun i => i.parent.isNone) &&
              (c.claims e).any (fun v => v.id = ⟨3⟩) &&
                (c.claims e).any fun w =>
                  (c.claims e).all fun v => v.id ≠ ⟨3⟩ || v.specificity < w.specificity)) =
                    true := by decide +kernel
  obtain ⟨library, hlib, e, c, hm, found⟩ := exists_delivered run
  simp only [Bool.and_eq_true, Option.any_eq_true, Bool.not_eq_true', List.any_eq_true,
    List.all_eq_true, Bool.or_eq_true, decide_eq_true_eq, Option.isNone_iff_eq_none] at found
  obtain ⟨⟨⟨⟨g, hg, failing⟩, i, hi, parent⟩, v, hv, hid⟩, w, hw, beaten⟩ := found
  obtain ⟨apart, aborted, -⟩ := delivery_isolated "session" library .standard ∅ _ e c hm
  have broken : c.IsBroken e ⟨1⟩ := by
    cases hc : g.candidate? e (c.scope g) with
    | error err => exact ⟨g, err, hg, hc⟩
    | ok found =>
      rw [hc] at failing
      cases failing
  -- The other flow competes for the event and loses.
  have hs := (ready_of_delivered (ready_new "session" library .standard ∅) hm).orderly.sound
  obtain ⟨j, hj, -, claiming⟩ :=
    (Cascade.mem_candidates_iff hs).1 ((Cascade.mem_claims_iff hs).1 hv)
  rw [hid] at hj
  obtain rfl := Option.some.inj (hi.symm.trans hj)
  -- It stands below nobody, and the event does not concern it.
  have alone : ∀ a, c.IsAddressed e a ∨ c.Wins e a ∨ c.IsBroken e a →
      ¬ c.toSession.Attached a ⟨3⟩ := by
    rintro a concerned (_ | ⟨-, hj, hp, -⟩)
    · rcases concerned with ⟨j, r, hj, hc⟩ | ⟨v, wins, hv⟩ | ⟨j, err, hj, hc⟩
      · obtain rfl := Option.some.inj (hi.symm.trans hj)
        rw [hc] at claiming
        cases claiming
      · have less := (beaten v wins.mem).resolve_left fun hne => hne hv
        exact absurd (wins.specific w hw) (Nat.not_le.2 less)
      · obtain rfl := Option.some.inj (hi.symm.trans hj)
        rw [hc] at claiming
        cases claiming
    · obtain rfl := Option.some.inj (hi.symm.trans hj)
      rw [parent] at hp
      cases hp
  obtain ⟨i', hi', -, -, phase, -⟩ := apart ⟨3⟩ i hi alone
  exact ⟨library, hlib, e, c, i, i', hm, hi, hi', phase, aborted ⟨1⟩ broken⟩

end Session

end Dialogue
