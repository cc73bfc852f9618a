import Dialogue.Proofs.Calls
import Dialogue.Proofs.Session.Lineage
import Dialogue.Session
import Mathlib.Data.List.Forall2
import Mathlib.Logic.Relation

/-!
# What may happen in a turn

All that a session does in a turn is made of a few kinds of changes. An instance begins, moves on,
is suspended, is woken, or ends; a call is started or cancelled; something is noted. What holds
after each of these changes holds in every turn, so it is said here once what each of them may do.

The end of an instance comes in two sizes. One instance ends at a time, and in between its children
are without a parent; what is over as a whole is the end of an instance and of all that it has
started.

## Main definitions

* `Wait.Fits`, `Session.Stands` — what a wait is about
* `Cascade.Ends` — the end of one instance
* `Cascade.Prunes` — the end of an instance and of what it has started
* `Cascade.Change`, `Cascade.Suspends`, `Cascade.Wakes` — the changes
* `Session.Later` — what stays as it is in the course of time

## Main results

* `Cascade.Change.later`, `Cascade.Suspends.later`, `Cascade.Wakes.later`
-/

namespace Dialogue

open Relation (ReflTransGen)

/-! ## Waiting -/

/-- What an arm is armed with is of the kind of its lead. -/
def Lead.IsArmedAs : Lead → Armed → Prop
  | .event _, .event => True
  | .flow _ _, .child _ => True
  | .action _ _ _, .call _ => True
  | _, _ => False

/-- A wait belongs to the `select` at which an instance stands. -/
structure Wait.Fits (w : Wait) (i : Instance) : Prop where
  place : w.select = i.pc
  select : ∃ s, i.flow.program.get? i.pc = some (.select s) ∧
    List.Forall₂ (fun arm armed => arm.lead.IsArmedAs armed) s.arms w.arms ∧
      (w.timer.isSome ↔ s.timeout.isSome)

/-- What an arm of an instance waits for can still come: the child is live, or the call is pending
and not cancelled. -/
def Session.Stands (s : Session) (id : InstanceId) : Armed → Prop
  | .event => True
  | .child k => ∃ i, s.instances.get? k = some i ∧ i.parent = some id
  | .call k => ∃ call, s.calls.pending.get? k = some call ∧ call.owner = id ∧
      call.isCancelled = false

/-! ## Ending -/

/-- What is left of an instance when others have ended: it loses its links to them. -/
structure Instance.Left (s : Session) (i i' : Instance) : Prop where
  id : i'.id = i.id
  flow : i'.flow = i.flow
  pc : i'.pc = i.pc
  locals : i'.locals = i.locals
  phase : i'.phase = i.phase
  isDetached : i'.isDetached = i.isDetached
  children : ∀ k ∈ i.children, k ∈ i'.children ∨ s.instances.get? k = none
  parent : ∀ p, i.parent = some p →
    i'.parent = some p ∨ i.isDetached = true ∧ s.instances.get? p = none
  parent_of : ∀ p, i'.parent = some p → i.parent = some p
  sublist : i'.children.Sublist i.children
  depth : i'.depth = i.depth

/-- No instance has begun, and those that are still live are what is left of them. -/
def Session.Survivors (s s' : Session) : Prop :=
  ∀ id i', s'.instances.get? id = some i' → ∃ i, s.instances.get? id = some i ∧ i.Left s' i'

namespace Session.Survivors

variable {s s' s'' : Session}

theorem of_eq (h : s'.instances = s.instances) : s.Survivors s' := fun _ i hi =>
  ⟨i, h ▸ hi, rfl, rfl, rfl, rfl, rfl, rfl, fun _ hk => .inl hk, fun _ hp => .inl hp,
    fun _ hp => hp, .refl _, rfl⟩

theorem refl (s : Session) : s.Survivors s := of_eq rfl

theorem gone (h : s.Survivors s') {k : InstanceId} (hk : s.instances.get? k = none) :
    s'.instances.get? k = none := by
  rw [Option.eq_none_iff_forall_ne_some]
  intro i' hi'
  obtain ⟨i, hi, -⟩ := h k i' hi'
  rw [hk] at hi
  cases hi

theorem trans (h : s.Survivors s') (h' : s'.Survivors s'') : s.Survivors s'' := by
  intro id i'' hi''
  obtain ⟨i', hi', l'⟩ := h' id i'' hi''
  obtain ⟨i, hi, l⟩ := h id i' hi'
  refine ⟨i, hi, l'.id.trans l.id, l'.flow.trans l.flow, l'.pc.trans l.pc, l'.locals.trans l.locals,
    l'.phase.trans l.phase, l'.isDetached.trans l.isDetached, fun k hk => ?_, fun p hp => ?_,
    fun p hp => l.parent_of p (l'.parent_of p hp),
    l'.sublist.trans l.sublist, l'.depth.trans l.depth⟩
  -- A link that has been lost first is lost for good, since what is gone stays gone.
  · rcases l.children k hk with hk | hk
    · exact l'.children k hk
    · exact .inr (h'.gone hk)
  · rcases l.parent p hp with hp' | ⟨hd, hp'⟩
    · rw [← l.isDetached]
      exact l'.parent p hp'
    · exact .inr ⟨hd, h'.gone hp'⟩

end Session.Survivors

namespace Cascade

/-- What a turn has numbered and said so far, and whether it has been broken off. -/
def ledger (c : Cascade) : Nat × Array Event × Option SessionError :=
  (c.sequenced, c.emitted, c.fault)

/-- The timers without the one of a wait that has come to its end, if it had one. -/
def timersWithout (c : Cascade) (timer : Option TimerId) : Timers :=
  match timer with
  | some timer => c.timers.cancel timer
  | none => c.timers

theorem loses_timersWithout (c : Cascade) (timer : Option TimerId) :
    c.timers.Loses (c.timersWithout timer) := by
  unfold timersWithout
  split
  · exact c.timers.loses_cancel _
  · exact .refl _

/-- The end of one instance. Its timer goes with it, and so do its calls if it waits for them. Its
end is announced. -/
structure Ends (c : Cascade) (id : InstanceId) (c' : Cascade) : Prop where
  live : (c.instances.get? id).isSome
  gone : c'.instances.get? id = none
  spared : ∀ k, k ≠ id → (c.instances.get? k).isSome → (c'.instances.get? k).isSome
  survivors : c.toSession.Survivors c'.toSession
  archive : ∃ i : Instance, i.id = id ∧ i.phase.isLive = false ∧
    c'.archive = (c.archive.insert id i).keepLast c.limits.archiveSize
  timers : ∃ i, c.instances.get? id = some i ∧
    c'.timers = c.timersWithout (i.wait?.bind Wait.timer)
  calls : c.calls.Loses c'.calls
  callsOfEnded : ∀ i k call, c.instances.get? id = some i → c'.calls.pending.get? k = some call →
    call.owner = id → call.isCancelled = false → i.wait? = none
  callsOfOthers : ∀ k call, c.calls.pending.get? k = some call → call.owner ≠ id →
    c'.calls.pending.get? k = some call
  announced : ∃ e : Event, (e.name = EventName.flowFinished ∨ e.name = EventName.flowFailed) ∧
    e.parameter? "instance_id" = some (.ofNat id.number) ∧
      c'.produced = c.produced.push ⟨none, e⟩
  created : c'.created = c.created
  limits : c'.limits = c.limits
  library : c'.library = c.library
  queue : c'.queue = c.queue
  clock : c'.clock = c.clock
  ledger : c'.ledger = c.ledger
  unlinked : ∃ ended, c.instances.get? id = some ended ∧ ∀ k i', c'.instances.get? k = some i' →
    (ended.parent = some k → id ∉ i'.children) ∧ (i'.isDetached = true → i'.parent ≠ some id)

/-- Some instances end, one after the other. -/
def Removes : Cascade → Cascade → Prop := ReflTransGen fun c c' => ∃ id, c.Ends id c'

/-- Some instances end, and with each of them its children, except for those that are spared. -/
structure Prunes (spared : List InstanceId) (c c' : Cascade) : Prop where
  removes : Removes c c'
  closed : ∀ id i, c.instances.get? id = some i → c'.instances.get? id = none →
    ∀ k ∈ i.children, c'.instances.get? k = none ∨ k ∈ spared

theorem Removes.survivors {c c' : Cascade} (h : Removes c c') :
    c.toSession.Survivors c'.toSession := by
  induction h with
  | refl => exact .refl _
  | tail _ last ih =>
    obtain ⟨id, e⟩ := last
    exact ih.trans e.survivors

/-! ## The changes -/

/-- A change that neither suspends an instance nor wakes one. -/
inductive Change (c : Cascade) : Cascade → Prop
  /-- Something is noted, or said by an instance. -/
  | note (context : Params) (notices : Array Notice) (failures : Array Failure)
      {produced : Array Produced} (kept : ∀ p ∈ c.produced, p ∈ produced)
      (spoken : ∀ p ∈ produced, p ∈ c.produced ∨ p.speaker.isSome) :
      Change c { c with context, notices, failures, produced }
  /-- An instance begins. -/
  | begin {flow args parent isDetached id c'}
      (h : c.spawn flow args parent isDetached = some (id, c'))
      (live : ∀ p, parent = some p → (c.instances.get? p).isSome) : Change c c'
  /-- A call is started. -/
  | call (owner : InstanceId) (action : String) (params : Params) :
      Change c { c with calls := (c.calls.start owner action params).2 }
  /-- A running instance goes on. -/
  | move {id i} (live : c.instances.get? id = some i) (running : i.phase = .running) (pc : Nat)
      {locals : Params} (kept : ∀ k, i.locals.contains k = true → locals.contains k = true) :
      Change c { c with instances := c.instances.insert id { i with pc, locals } }
  /-- A call is cancelled that no suspended instance waits for. -/
  | cancel {k} (useless : ∀ call, c.calls.pending.get? k = some call →
      ∀ i, c.instances.get? call.owner = some i → i.wait? = none) :
      Change c { c with calls := c.calls.cancel k }
  /-- Instances end, and what they have started. -/
  | prune {c'} (h : Prunes [] c c') : Change c c'

/-- A running instance is suspended. What it waits for may not outlive it, and its timer is set to
the time that its `select` says. -/
inductive Suspends (c : Cascade) (id : InstanceId) (w : Wait) : Cascade → Prop
  | intro {i timers} (live : c.instances.get? id = some i) (running : i.phase = .running)
      (fits : w.Fits i) (stands : ∀ a ∈ w.arms, c.toSession.Stands id a)
      (timer : w.timer = none ∧ timers = c.timers ∨
        ∃ deadline, w.timer = some ⟨c.timers.issued + 1⟩ ∧
          timers = (c.timers.arm deadline id).2 ∧
            ∃ s after, i.flow.program.get? i.pc = some (.select s) ∧ s.timeout = some after ∧
              c.clock.add? after = some deadline)
      (attached : ∀ k ∈ armedChildren w.arms, ∀ j, c.instances.get? k = some j →
        j.isDetached = false) :
      Suspends c id w
        { c with timers, instances := c.instances.insert id { i with phase := .waiting w } }

/-- A suspended instance is woken. -/
inductive Wakes (c : Cascade) (id : InstanceId) (w : Wait) : Cascade → Prop
  | intro {i} (live : c.instances.get? id = some i) (waiting : i.phase = .waiting w) :
      Wakes c id w { c with
        timers := c.timersWithout w.timer
        instances := c.instances.insert id { i with phase := .running } }

/-! ## Beginning -/

/-- What it is for an instance to begin: it is live, its parent has one more child unless the child
may outlive it, and the beginning is told. -/
theorem begins_of_spawn {c c' : Cascade} {flow args parent isDetached id}
    (h : c.spawn flow args parent isDetached = some (id, c')) :
    ∃ compiled depth instances, c.library.get? flow = some compiled ∧ id = ⟨c.created + 1⟩ ∧
      (∀ p i, parent = some p → c.instances.get? p = some i → depth = i.depth + 1) ∧
        (∀ k, instances.get? k =
          if k = id then some (Instance.begin id compiled args parent depth isDetached)
          else (c.instances.get? k).map fun i =>
            if parent = some k ∧ isDetached = false then { i with children := i.children ++ [id] }
            else i) ∧
          c' = { c with
            created := c.created + 1, instances
            notices := c.notices.push (.flowStarted id flow depth)
            produced := c.produced.push ⟨none, Event.of EventName.flowStarted
              [("flow", .string flow), ("instance_id", .ofNat id.number)]⟩ } := by
  unfold spawn at h
  split at h
  · cases h
  · next compiled hflow =>
    obtain ⟨rfl, rfl⟩ := Prod.mk.inj (Option.some.inj h)
    refine ⟨compiled, _, _, hflow, rfl, fun p i hp hi => ?_, fun k =>
      (Table.get?_insert ..).trans (if_congr Iff.rfl rfl ?_), rfl⟩
    · subst hp
      simp only [Option.bind_some, hi]
    -- The parent gets its new child before that is stored, unless the child may outlive it.
    · rcases parent with _ | p
      · simp [notify]
      · rcases isDetached with _ | _
        · by_cases hk : k = p
          · simp [notify, Table.get?_modify, hk]
          · simp [notify, Table.get?_modify, hk, Ne.symm hk]
        · simp [notify]

/-- What the beginning of an instance does to those that are live already. -/
theorem get?_spawn {c c' : Cascade} {flow args parent isDetached id}
    (h : c.spawn flow args parent isDetached = some (id, c')) :
    ∃ compiled depth, id = ⟨c.created + 1⟩ ∧
      (∀ k, c'.instances.get? k =
        if k = id then some (Instance.begin id compiled args parent depth isDetached)
        else (c.instances.get? k).map fun i =>
          if parent = some k ∧ isDetached = false then { i with children := i.children ++ [id] }
          else i) ∧ c.library.get? flow = some compiled := by
  obtain ⟨compiled, depth, instances, hflow, hid, -, hget, rfl⟩ := begins_of_spawn h
  exact ⟨compiled, depth, hid, hget, hflow⟩

/-- The beginning of an instance leaves everything else as it is. -/
theorem spawn_frame {c c' : Cascade} {flow args parent isDetached id}
    (h : c.spawn flow args parent isDetached = some (id, c')) :
    c'.created = c.created + 1 ∧ c'.archive = c.archive ∧ c'.limits = c.limits ∧
      c'.timers = c.timers ∧ c'.calls = c.calls ∧ c'.queue = c.queue ∧
        ∃ p, c'.produced = c.produced.push p := by
  obtain ⟨-, -, -, -, -, -, -, rfl⟩ := begins_of_spawn h
  exact ⟨rfl, rfl, rfl, rfl, rfl, rfl, _, rfl⟩

end Cascade

namespace Cascade

variable {c c' : Cascade} {id : InstanceId} {w : Wait}

/-- What an instance that begins reports. -/
theorem reports_spawn {flow args parent isDetached}
    (h : c.spawn flow args parent isDetached = some (id, c')) :
    c'.clock = c.clock ∧ c'.library = c.library ∧ ∃ e : Event, e.name = EventName.flowStarted ∧
      c'.produced = c.produced.push ⟨none, e⟩ := by
  obtain ⟨-, -, -, -, -, -, -, rfl⟩ := begins_of_spawn h
  exact ⟨rfl, rfl, _, rfl, rfl⟩

theorem Ends.loses_timers (h : c.Ends id c') : c.timers.Loses c'.timers := by
  obtain ⟨i, -, timers⟩ := h.timers
  exact timers ▸ c.loses_timersWithout _

/-! ## The bounds, the library and the clock -/

theorem Removes.limits (h : Removes c c') : c'.limits = c.limits := by
  induction h with
  | refl => rfl
  | tail _ last ih =>
    obtain ⟨id, e⟩ := last
    exact e.limits.trans ih

theorem Change.limits (h : c.Change c') : c'.limits = c.limits := by
  cases h with
  | begin h _ => exact (spawn_frame h).2.2.1
  | prune h => exact h.removes.limits
  | _ => rfl

theorem Removes.library (h : Removes c c') : c'.library = c.library := by
  induction h with
  | refl => rfl
  | tail _ last ih =>
    obtain ⟨id, e⟩ := last
    exact e.library.trans ih

theorem Change.library (h : c.Change c') : c'.library = c.library := by
  cases h with
  | begin h _ => exact (reports_spawn h).2.1
  | prune h => exact h.removes.library
  | _ => rfl

theorem Removes.clock (h : Removes c c') : c'.clock = c.clock := by
  induction h with
  | refl => rfl
  | tail _ last ih =>
    obtain ⟨id, e⟩ := last
    exact e.clock.trans ih

/-- No time passes in the course of a turn. -/
theorem Change.clock (h : c.Change c') : c'.clock = c.clock := by
  cases h with
  | begin h _ => exact (reports_spawn h).1
  | prune h => exact h.removes.clock
  | _ => rfl

theorem Suspends.clock (h : c.Suspends id w c') : c'.clock = c.clock := by
  obtain ⟨-⟩ := h
  rfl

theorem Wakes.clock (h : c.Wakes id w c') : c'.clock = c.clock := by
  obtain ⟨-⟩ := h
  rfl

theorem Suspends.library (h : c.Suspends id w c') : c'.library = c.library := by
  obtain ⟨-⟩ := h
  rfl

theorem Wakes.library (h : c.Wakes id w c') : c'.library = c.library := by
  obtain ⟨-⟩ := h
  rfl

theorem Suspends.limits (h : c.Suspends id w c') : c'.limits = c.limits := by
  obtain ⟨-⟩ := h
  rfl

theorem Wakes.limits (h : c.Wakes id w c') : c'.limits = c.limits := by
  obtain ⟨-⟩ := h
  rfl

end Cascade

/-! ## The course of time

What has come to an end does not come back, since whatever begins gets an identifier that nothing
had before. -/

theorem Instance.Left.parent_eq {s : Session} {i i' : Instance} (h : i.Left s i')
    (attached : i.isDetached = false) : i'.parent = i.parent := by
  -- Only the parent of a detached instance is struck off, and no instance gets a new one.
  cases hp : i.parent with
  | none =>
    rw [Option.eq_none_iff_forall_ne_some]
    intro p hp'
    rw [h.parent_of p hp'] at hp
    cases hp
  | some p =>
    refine (h.parent p hp).resolve_right fun ⟨hd, _⟩ => ?_
    rw [attached] at hd
    cases hd

/-- Of the instances, calls and timers that there have been, some may have come to an end. An
instance that is still live has the parent that it may not outlive, and no new one. -/
structure Session.Later (s s' : Session) : Prop where
  created : s.created ≤ s'.created
  instances : ∀ id i', id.number ≤ s.created → s'.instances.get? id = some i' →
    ∃ i, s.instances.get? id = some i ∧ i'.isDetached = i.isDetached ∧
      (i.isDetached = false → i'.parent = i.parent) ∧
        (∀ p, i'.parent = some p → i.parent = some p) ∧ i'.flow = i.flow
  calls : s.calls.Later s'.calls
  timers : s.timers.Later s'.timers

namespace Session.Later

variable {s s' s'' : Session}

theorem trans (h : s.Later s') (h' : s'.Later s'') : s.Later s'' where
  created := Nat.le_trans h.created h'.created
  instances id i'' hn hi'' := by
    obtain ⟨i', hi', hd', hp', hn', hf'⟩ := h'.instances id i'' (Nat.le_trans hn h.created) hi''
    obtain ⟨i, hi, hd, hp, hnew, hf⟩ := h.instances id i' hn hi'
    exact ⟨i, hi, hd'.trans hd, fun ha => (hp' (hd.trans ha)).trans (hp ha),
      fun p h => hnew p (hn' p h), hf'.trans hf⟩
  calls := h.calls.trans h'.calls
  timers := h.timers.trans h'.timers

/-- An instance that has ended does not come back. -/
theorem gone (h : s.Later s') {id : InstanceId} (hn : id.number ≤ s.created)
    (hi : s.instances.get? id = none) : s'.instances.get? id = none := by
  rw [Option.eq_none_iff_forall_ne_some]
  intro i' hi'
  obtain ⟨i, hi₀, -⟩ := h.instances id i' hn hi'
  rw [hi] at hi₀
  cases hi₀

theorem of_survivors (h : s.Survivors s') (created : s.created ≤ s'.created)
    (calls : s.calls.Later s'.calls) (timers : s.timers.Later s'.timers) : s.Later s' where
  created
  instances id i' _ hi' := by
    obtain ⟨i, hi, l⟩ := h id i' hi'
    exact ⟨i, hi, l.isDetached, l.parent_eq, l.parent_of, l.flow⟩
  calls
  timers

theorem refl (s : Session) : s.Later s :=
  of_survivors (.refl s) (Nat.le_refl _) (Calls.Loses.refl _).later (Timers.Loses.refl _).later

/-- A live instance is changed, but not its place among the others. -/
theorem of_insert {id : InstanceId} {i i' : Instance} (hi : s.instances.get? id = some i)
    (hs : s'.instances = s.instances.insert id i') (hd : i'.isDetached = i.isDetached)
    (hp : i'.parent = i.parent) (hf : i'.flow = i.flow) (created : s.created ≤ s'.created)
    (calls : s.calls.Later s'.calls) (timers : s.timers.Later s'.timers) : s.Later s' where
  created
  instances k j _ hj := by
    rw [hs, Table.get?_insert] at hj
    split at hj
    · next hk =>
      obtain rfl := Option.some.inj hj
      exact ⟨i, hk ▸ hi, hd, fun _ => hp, fun p hj => hp ▸ hj, hf⟩
    · exact ⟨j, hj, rfl, fun _ => rfl, fun _ h => h, rfl⟩
  calls
  timers

end Session.Later

namespace Cascade

variable {c c' : Cascade} {id : InstanceId} {w : Wait}

theorem Ends.later (h : c.Ends id c') : c.toSession.Later c'.toSession :=
  .of_survivors h.survivors (Nat.le_of_eq h.created.symm) h.calls.later
    h.loses_timers.later

theorem Removes.later (h : Removes c c') : c.toSession.Later c'.toSession := by
  induction h with
  | refl => exact .refl _
  | tail _ last ih =>
    obtain ⟨id, e⟩ := last
    exact ih.trans e.later

theorem later_of_spawn {flow args parent isDetached}
    (h : c.spawn flow args parent isDetached = some (id, c')) :
    c.toSession.Later c'.toSession := by
  obtain ⟨compiled, depth, rfl, hget, -⟩ := get?_spawn h
  obtain ⟨created, -, -, timers, calls, -⟩ := spawn_frame h
  refine ⟨by simp [created], fun k i' hn hi' => ?_, calls ▸ (Calls.Loses.refl _).later,
    timers ▸ (Timers.Loses.refl _).later⟩
  -- What has begun before is not the instance that begins now.
  rw [hget, if_neg (Id.ne_next hn)] at hi'
  obtain ⟨i, hi, rfl⟩ := Option.map_eq_some_iff.1 hi'
  refine ⟨i, hi, ?_⟩
  split <;> exact ⟨rfl, fun _ => rfl, fun _ h => h, rfl⟩

theorem Change.later (h : c.Change c') : c.toSession.Later c'.toSession := by
  cases h with
  | note =>
    exact .of_survivors (.refl _) (Nat.le_refl _) (Calls.Loses.refl _).later
      (Timers.Loses.refl _).later
  | begin h _ => exact later_of_spawn h
  | call owner action params =>
    exact .of_survivors (.refl _) (Nat.le_refl _) (c.calls.later_start owner action params)
      (Timers.Loses.refl _).later
  | move live _ pc _ =>
    exact .of_insert live rfl rfl rfl rfl (Nat.le_refl _) (Calls.Loses.refl _).later
      (Timers.Loses.refl _).later
  | cancel _ =>
    exact .of_survivors (.refl _) (Nat.le_refl _) (c.calls.loses_cancel _).later
      (Timers.Loses.refl _).later
  | prune h => exact h.removes.later

theorem Suspends.later (h : c.Suspends id w c') : c.toSession.Later c'.toSession := by
  obtain ⟨live, -, -, -, timer, -⟩ := h
  refine .of_insert live rfl rfl rfl rfl (Nat.le_refl _) (Calls.Loses.refl _).later ?_
  -- A timer that is armed is a new one.
  rcases timer with ⟨-, rfl⟩ | ⟨deadline, -, rfl, -⟩
  · exact (Timers.Loses.refl _).later
  · exact c.timers.later_arm deadline id

theorem Wakes.later (h : c.Wakes id w c') : c.toSession.Later c'.toSession := by
  obtain ⟨live, -⟩ := h
  exact .of_insert live rfl rfl rfl rfl (Nat.le_refl _) (Calls.Loses.refl _).later
    (c.loses_timersWithout w.timer).later

end Cascade

end Dialogue
