import Dialogue.Proofs.Session.Ending
import Dialogue.Proofs.Session.Instruction

/-!
# What an activation does

An instruction either suspends its instance, or lets it go on or end, or fails. If it fails, the
instance is ended, and with it whatever a `select` may have started before the failure: all of that
stands below the instance.

## Main definitions

* `Cascade.Expands` — what starting the leads of a `select` does
* `Cascade.Calm` — where the running instances of a cascade are to be found
* `Cascade.Executes`, `Cascade.Fails` — what an instruction does

## Main results

* `Cascade.execute_ok`, `Cascade.execute_error` — every instruction does that
* `Cascade.calm_step` — what runs after a step
-/

namespace Dialogue

/-- An instance with more children. -/
def Instance.Grown (i i' : Instance) : Prop :=
  ∃ more, i' = { i with children := i.children ++ more }

theorem Instance.Grown.refl (i : Instance) : i.Grown i := ⟨[], by simp⟩

theorem Instance.Grown.trans {i i' i'' : Instance} (h : i.Grown i') (h' : i'.Grown i'') :
    i.Grown i'' := by
  obtain ⟨more, rfl⟩ := h
  obtain ⟨more', rfl⟩ := h'
  exact ⟨more ++ more', by simp⟩

/-- What an instance is suspended for. -/
def Session.waitOf? (s : Session) (id : InstanceId) : Option Wait :=
  (s.instances.get? id).bind Instance.wait?

theorem Instance.wait?_eq_some {i : Instance} {w : Wait} :
    i.wait? = some w ↔ i.phase = .waiting w := by
  unfold Instance.wait?
  cases i.phase <;> simp

theorem Instance.wait?_of_running {i : Instance} (h : i.phase = .running) : i.wait? = none := by
  simp [Instance.wait?, h]

theorem Instance.wait?_congr {i i' : Instance} (h : i'.phase = i.phase) : i'.wait? = i.wait? := by
  rw [wait?, h, wait?]

/-- What an instance is suspended for is in order. -/
theorem Session.Sound.wait {s : Session} (hs : s.Sound) {id : InstanceId} {i : Instance} {w : Wait}
    (hi : s.instances.get? id = some i) (hw : i.wait? = some w) : w.Sound s i :=
  (hs.instances id i hi).waits w (Instance.wait?_eq_some.1 hw)

/-- Whoever is suspended after others have ended was so before, for the same. -/
theorem Session.Survivors.waitOf?_of {s s' : Session} {id : InstanceId} {w : Wait}
    (h : s.Survivors s') (hw : s'.waitOf? id = some w) : s.waitOf? id = some w := by
  obtain ⟨i', hi', hwait⟩ := Option.bind_eq_some_iff.1 hw
  obtain ⟨i, hi, left⟩ := h id i' hi'
  exact Option.bind_eq_some_iff.2 ⟨i, hi, (Instance.wait?_congr left.phase).symm.trans hwait⟩

namespace Cascade

variable {c c' c'' : Cascade} {id : InstanceId} {i : Instance}

/-! ## Starting what a `select` waits for -/

/-- Children of an instance have begun, and calls have been started. -/
structure Expands (owner : InstanceId) (isNew : InstanceId → Prop) (c c' : Cascade) : Prop where
  old : ∀ k i, c.instances.get? k = some i → ∃ i', c'.instances.get? k = some i' ∧ i.Grown i'
  new : ∀ k i', c'.instances.get? k = some i' →
    (∃ i, c.instances.get? k = some i ∧ i.Grown i') ∨
      isNew k ∧ i'.parent = some owner ∧ i'.isDetached = false
  calls : ∀ k call, c.calls.pending.get? k = some call → c'.calls.pending.get? k = some call

theorem Expands.refl (owner : InstanceId) (isNew : InstanceId → Prop) (c : Cascade) :
    Expands owner isNew c c :=
  ⟨fun _ i hi => ⟨i, hi, .refl i⟩, fun _ i hi => .inl ⟨i, hi, .refl i⟩, fun _ _ h => h⟩

theorem Expands.trans {owner : InstanceId} {isNew isNew' isNew'' : InstanceId → Prop}
    (h : Expands owner isNew c c') (h' : Expands owner isNew' c' c'')
    (left : ∀ k, isNew k → isNew'' k) (right : ∀ k, isNew' k → isNew'' k) :
    Expands owner isNew'' c c'' where
  old k i hi := by
    obtain ⟨i', hi', g⟩ := h.old k i hi
    obtain ⟨i'', hi'', g'⟩ := h'.old k i' hi'
    exact ⟨i'', hi'', g.trans g'⟩
  new k i'' hi'' := by
    rcases h'.new k i'' hi'' with ⟨i', hi', more, rfl⟩ | ⟨hk, hp, hd⟩
    · rcases h.new k i' hi' with ⟨i, hi, g⟩ | ⟨hk, hp, hd⟩
      · exact .inl ⟨i, hi, g.trans ⟨more, rfl⟩⟩
      · exact .inr ⟨left k hk, hp, hd⟩
    · exact .inr ⟨right k hk, hp, hd⟩
  calls k call hk := h'.calls k call (h.calls k call hk)

theorem Expands.isSome {owner : InstanceId} {isNew : InstanceId → Prop}
    (h : Expands owner isNew c c') (hi : (c.instances.get? id).isSome) :
    (c'.instances.get? id).isSome := by
  obtain ⟨j, hj⟩ := Option.isSome_iff_exists.1 hi
  obtain ⟨j', hj', -⟩ := h.old id j hj
  rw [hj']
  rfl

/-- What an arm stands for still stands when more is started. -/
theorem Expands.stands {owner : InstanceId} {isNew : InstanceId → Prop}
    (h : Expands owner isNew c c') {a : Armed} (ha : c.toSession.Stands id a) :
    c'.toSession.Stands id a := by
  cases a with
  | event => trivial
  | child k =>
    obtain ⟨j, hj, hp⟩ := ha
    obtain ⟨j', hj', more, rfl⟩ := h.old k j hj
    exact ⟨_, hj', hp⟩
  | call k =>
    obtain ⟨call, hk, ho⟩ := ha
    exact ⟨call, h.calls k call hk, ho⟩

theorem expands_spawn {flow : String} {args : Params} (hs : c.toSession.Sound)
    {owner : InstanceId} (h : c.spawn flow args (some owner) false = some (id, c')) :
    Expands owner (· = id) c c' := by
  obtain ⟨compiled, depth, rfl, hget, -⟩ := get?_spawn h
  refine ⟨fun k i hi => ?_, fun k i' hi' => ?_, fun k call hk => ?_⟩
  -- The new identifier is not that of a live instance.
  · rw [hget, if_neg (Id.ne_next (hs.instances k i hi).begun), hi]
    refine ⟨_, rfl, ?_⟩
    split
    · exact ⟨_, rfl⟩
    · exact .refl i
  · rw [hget] at hi'
    split at hi'
    · next hk =>
      obtain rfl := Option.some.inj hi'
      exact .inr ⟨hk, rfl, rfl⟩
    · obtain ⟨i, hi, rfl⟩ := Option.map_eq_some_iff.1 hi'
      refine .inl ⟨i, hi, ?_⟩
      split
      · exact ⟨_, rfl⟩
      · exact .refl i
  · rw [(spawn_frame h).2.2.2.2.1]
    exact hk

theorem armLead_ok {lead : Lead} {a : Armed} (hs : c.toSession.Sound)
    (hi : (c.instances.get? i.id).isSome) (h : c.armLead i lead = (c', .ok a)) :
    Changes c c' ∧ Expands i.id (· ∈ armedChildren [a]) c c' ∧ lead.IsArmedAs a ∧
      c'.toSession.Stands i.id a ∧
        ∀ k ∈ armedChildren [a], ∀ j, c'.instances.get? k = some j → j.isDetached = false := by
  cases startsLead_armLead h with
  | event => exact ⟨.refl, .refl _ _ c, trivial, trivial, by simp [armedChildren]⟩
  | @child _ _ _ child _ _ spawned =>
    obtain ⟨compiled, depth, -, hget, -⟩ := get?_spawn spawned
    -- The parent of the new instance is the one that waits, which is live.
    have live : ∀ p, some i.id = some p → (c.instances.get? p).isSome := by
      rintro p hp
      exact Option.some.inj hp ▸ hi
    refine ⟨.single (.begin spawned live), (expands_spawn hs spawned).trans
      (.refl i.id (fun _ => False) c') (by simp [armedChildren]) (fun _ h => h.elim), trivial,
      ⟨_, (hget child).trans (if_pos rfl), rfl⟩, fun k hk j hj => ?_⟩
    obtain rfl : k = child := by simpa [armedChildren] using hk
    rw [hget, if_pos rfl] at hj
    exact Option.some.inj hj ▸ rfl
  | @call name _ _ params =>
    -- The new call has an identifier that no pending call has.
    have pending : ∀ k call, c.calls.pending.get? k = some call →
        (c.calls.start i.id name params).2.pending.get? k = some call := by
      intro k call hk
      rw [Calls.get?_start, if_neg (Id.ne_next (hs.calls k call hk))]
      exact hk
    refine ⟨.head (.call i.id name params)
        (.single (.note _ _ _ (fun _ h => h) fun _ h => .inl h)),
      ⟨fun k j hj => ⟨j, hj, .refl j⟩, fun k j hj => .inl ⟨j, hj, .refl j⟩, pending⟩, trivial,
      ⟨⟨i.id, name, false⟩, ?_, rfl, rfl⟩, by simp [armedChildren]⟩
    exact (Calls.get?_start ..).trans (if_pos rfl)

/-- Starting all leads gives every arm what it waits for. -/
theorem armAll_ok {arms : List Arm} {armed : List Armed} (hs : c.toSession.Sound)
    (hi : (c.instances.get? i.id).isSome) (h : c.armAll i arms = (c', .ok armed)) :
    Changes c c' ∧ Expands i.id (· ∈ armedChildren armed) c c' ∧
      List.Forall₂ (fun arm a => arm.lead.IsArmedAs a) arms armed ∧
        (∀ a ∈ armed, c'.toSession.Stands i.id a) ∧
          ∀ k ∈ armedChildren armed, ∀ j, c'.instances.get? k = some j → j.isDetached = false := by
  induction arms generalizing c armed with
  | nil =>
    cases startsLeads_armAll h with
    | nil =>
      exact ⟨.refl, .refl _ _ _, .nil, fun _ h => absurd h List.not_mem_nil,
        fun _ h => absurd h List.not_mem_nil⟩
  | cons arm rest ih =>
    cases startsLeads_armAll h with
    | @cons _ _ c₁ a _ more first others =>
      obtain ⟨changes₁, expands₁, kind, stands, attached⟩ := armLead_ok hs hi first
      -- The instance is still live, so the other leads are started for it too.
      obtain ⟨changes₂, expands₂, kinds, standing, attaching⟩ :=
        ih (Changes.sound changes₁ hs) (expands₁.isSome hi) others
      have split : armedChildren (a :: more) = armedChildren [a] ++ armedChildren more :=
        List.filterMap_append (l := [a])
      refine ⟨changes₁.trans changes₂, expands₁.trans expands₂ (fun k hk => ?_)
        (fun k hk => ?_), .cons kind kinds, fun b hb => ?_, fun k hk j hj => ?_⟩
      · exact split ▸ List.mem_append_left _ hk
      · exact split ▸ List.mem_append_right _ hk
      · rcases List.mem_cons.1 hb with rfl | hb
        · exact expands₂.stands stands
        · exact standing b hb
      · rcases List.mem_append.1 (split ▸ hk) with hk | hk
        · rcases expands₂.new k j hj with ⟨j₁, hj₁, _, rfl⟩ | ⟨-, -, hd⟩
          · exact attached k hk j₁ hj₁
          · exact hd
        · exact attaching k hk j hj

/-- Starting the leads may fail at one of them; those before it have been started by then. -/
theorem armAll_error {e : FlowError} {arms : List Arm} (hs : c.toSession.Sound)
    (hi : (c.instances.get? i.id).isSome) (h : c.armAll i arms = (c', .error e)) :
    Changes c c' ∧ Expands i.id (fun _ => True) c c' := by
  induction arms generalizing c with
  | nil => cases startsLeads_armAll h
  | cons arm rest ih =>
    cases startsLeads_armAll h with
    | fail => exact ⟨.refl, .refl _ _ _⟩
    | stall first others =>
      obtain ⟨changes₁, expands₁, -⟩ := armLead_ok hs hi first
      obtain ⟨changes₂, expands₂⟩ := ih (Changes.sound changes₁ hs) (expands₁.isSome hi) others
      exact ⟨changes₁.trans changes₂, expands₁.trans expands₂ (fun _ _ => trivial)
        (fun _ _ => trivial)⟩

/-! ## Instructions -/

theorem change_eq (hi : c.instances.get? id = some i) (f : Instance → Instance) :
    c.change id f = { c with instances := c.instances.insert id (f i) } := by
  rw [change, Table.modify_eq_insert hi]

/-- All running instances are on a stack. -/
def Calm (stack : List InstanceId) (c : Cascade) : Prop :=
  ∀ k i, c.instances.get? k = some i → i.phase = .running → k ∈ stack

variable {stack : List InstanceId}

theorem Calm.mono {stack' : List InstanceId} (h : Calm stack c) (sub : ∀ k ∈ stack, k ∈ stack') :
    Calm stack' c :=
  fun k i hi hr => sub k (h k i hi hr)

/-- An instance that does not run need not be on the stack. -/
theorem Calm.tail (h : Calm (id :: stack) c)
    (idle : ∀ i, c.instances.get? id = some i → i.phase ≠ .running) : Calm stack c := by
  intro k i hi hr
  apply (List.mem_cons.1 (h k i hi hr)).resolve_left
  rintro rfl
  exact idle i hi hr

theorem Calm.survivors (h : Calm stack c) (sv : c.toSession.Survivors c'.toSession) :
    Calm stack c' := by
  intro k i' hi' hr
  obtain ⟨i, hi, left⟩ := sv k i' hi'
  exact h k i hi (left.phase ▸ hr)

/-- A running instance may be replaced by any other one. -/
theorem Calm.insert {i' : Instance} (h : Calm stack c) (hi : c.instances.get? id = some i)
    (hr : i.phase = .running) (hc : c'.instances = c.instances.insert id i') : Calm stack c' := by
  intro k j hj hrun
  rw [hc, Table.get?_insert] at hj
  split at hj
  · next hk => exact hk ▸ h id i hi hr
  · exact h k j hj hrun

/-- An instruction that only moves its instance on. -/
structure GoesOn (id : InstanceId) (c c' : Cascade) : Prop where
  changes : Changes c c'
  waitOf? : c'.toSession.waitOf? id = none
  calm : ∀ stack, Calm stack c → Calm stack c'

theorem goesOn_insert {pc : Nat} {locals : Params} (hi : c.instances.get? id = some i)
    (hr : i.phase = .running) (kept : ∀ k, i.locals.contains k = true → locals.contains k = true) :
    GoesOn id c { c with instances := c.instances.insert id { i with pc, locals } } := by
  refine ⟨.single (.move hi hr pc kept), ?_, fun _ h => h.insert hi hr rfl⟩
  rw [Session.waitOf?, Table.get?_insert_self]
  exact Instance.wait?_of_running hr

theorem goesOn_goto (hi : c.instances.get? id = some i) (hr : i.phase = .running) (pc : Nat) :
    GoesOn id c (c.goto id pc) := by
  rw [goto, change_eq hi]
  exact goesOn_insert hi hr fun _ h => h

/-- Something may be noted or said before an instance moves on. -/
theorem GoesOn.note {context : Params} {produced : Array Produced}
    (kept : ∀ p ∈ c.produced, p ∈ produced)
    (spoken : ∀ p ∈ produced, p ∈ c.produced ∨ p.speaker.isSome)
    (h : GoesOn id { c with context, produced } c') : GoesOn id c c' :=
  ⟨.head (.note context c.notices c.failures kept spoken) h.changes, h.waitOf?, h.calm⟩

theorem GoesOn.trans (h : GoesOn id c c') (h' : GoesOn id c' c'') : GoesOn id c c'' :=
  ⟨h.changes.trans h'.changes, h'.waitOf?, fun stack hc => h'.calm stack (h.calm stack hc)⟩

/-- An instance that begins is the only one that runs besides those that did. -/
theorem Calm.spawn {flow args parent isDetached} (h : Calm stack c)
    (hspawn : c.spawn flow args parent isDetached = some (id, c')) : Calm (id :: stack) c' := by
  obtain ⟨compiled, depth, -, hget, -⟩ := get?_spawn hspawn
  intro k j hj hrun
  rw [hget] at hj
  split at hj
  · next hk => exact hk ▸ List.mem_cons_self
  · obtain ⟨j₀, hj₀, rfl⟩ := Option.map_eq_some_iff.1 hj
    refine List.mem_cons_of_mem _ (h k j₀ hj₀ ?_)
    split at hrun <;> exact hrun

theorem waitOf?_spawn {flow args parent isDetached} {k : InstanceId}
    (h : c.spawn flow args parent isDetached = some (id, c')) (hk : k ≠ id) :
    c'.toSession.waitOf? k = c.toSession.waitOf? k := by
  obtain ⟨compiled, depth, -, hget, -⟩ := get?_spawn h
  rw [Session.waitOf?, Session.waitOf?, hget, if_neg hk]
  cases c.instances.get? k with
  | none => rfl
  | some j =>
    simp only [Option.map_some, Option.bind_some]
    -- The parent has one more child, but it is suspended for the same.
    split <;> rfl

theorem suspends_suspended {s : Select} {deadline : Option Instant} {arms : List Armed}
    (hs : c.toSession.Sound) (hi : c.instances.get? i.id = some i) (hr : i.phase = .running)
    (hsel : i.flow.program.get? i.pc = some (.select s))
    (due : s.timeout.map c.clock.add? = deadline.map some)
    (armed : c.armAll i s.arms = (c', .ok arms)) :
    ∃ w, c'.Suspends i.id w (c'.suspended i arms deadline) := by
  obtain ⟨changes, expands, kinds, stands, attached⟩ := armAll_ok hs (by rw [hi]; rfl) armed
  obtain ⟨i₁, hi₁, more, rfl⟩ := expands.old _ _ hi
  -- Only if there is a deadline, a timer is armed, under the next identifier.
  cases deadline with
  | none =>
    have timeless : s.timeout = none := Option.map_eq_none_iff.1 due
    have fits : Wait.Fits ⟨i.pc, arms, none⟩ { i with children := i.children ++ more } :=
      ⟨rfl, s, hsel, kinds, by simp [timeless]⟩
    refine ⟨⟨i.pc, arms, none⟩, ?_⟩
    rw [suspended, change_eq hi₁]
    exact .intro hi₁ hr fits stands (.inl ⟨rfl, rfl⟩) attached
  | some t =>
    obtain ⟨after, timed, hafter⟩ := Option.map_eq_some_iff.1 due
    have fits : Wait.Fits ⟨i.pc, arms, some ⟨c'.timers.issued + 1⟩⟩
        { i with children := i.children ++ more } := ⟨rfl, s, hsel, kinds, by simp [timed]⟩
    -- Meanwhile no time has passed.
    rw [← Changes.clock changes] at hafter
    let c₁ : Cascade := { c' with timers := (c'.timers.arm t i.id).2 }
    refine ⟨⟨i.pc, arms, some ⟨c'.timers.issued + 1⟩⟩, ?_⟩
    show c'.Suspends i.id _ (c₁.change i.id _)
    rw [change_eq (c := c₁) hi₁]
    exact .intro hi₁ hr fits stands
      (.inr ⟨t, rfl, rfl, s, after, hsel, timed, hafter⟩) attached

/-- What an instruction does that does not fail: it suspends its instance or moves it on. What has
to run next has begun with it. -/
structure Executes (id : InstanceId) (children : List InstanceId) (c c' : Cascade) : Prop where
  outcome : (∃ c₁ w, Changes c c₁ ∧ c₁.Suspends id w c') ∨
    Changes c c' ∧ c'.toSession.waitOf? id = none
  calm : ∀ stack, Calm stack c → Calm (children ++ stack) c'

/-- What an instruction does that fails: it may have started something, but only below its
instance. -/
structure Fails (id : InstanceId) (c c' : Cascade) : Prop where
  changes : Changes c c'
  running : ∀ stack, Calm stack c → ∀ k j, c'.instances.get? k = some j → j.phase = .running →
    k ∈ stack ∨ j.parent = some id ∧ j.isDetached = false

theorem GoesOn.executes (h : GoesOn id c c') (children : List InstanceId) :
    Executes id children c c' where
  outcome := .inr ⟨h.changes, h.waitOf?⟩
  calm stack hc := (h.calm stack hc).mono fun _ => List.mem_append_right _

theorem GoesOn.fails (h : GoesOn id c c') : Fails id c c' :=
  ⟨h.changes, fun stack hc k j hj hrun => .inl (h.calm stack hc k j hj hrun)⟩

theorem Fails.refl (id : InstanceId) (c : Cascade) : Fails id c c :=
  ⟨.refl, fun _ hc k j hj hrun => .inl (hc k j hj hrun)⟩

theorem executes_suspended {s : Select} {deadline : Option Instant} {arms : List Armed}
    (hs : c.toSession.Sound) (hi : c.instances.get? i.id = some i) (hr : i.phase = .running)
    (hsel : i.flow.program.get? i.pc = some (.select s))
    (due : s.timeout.map c.clock.add? = deadline.map some)
    (armed : c.armAll i s.arms = (c', .ok arms)) :
    Executes i.id (armedChildren arms) c (c'.suspended i arms deadline) := by
  obtain ⟨changes, expands, -⟩ := armAll_ok hs (by rw [hi]; rfl) armed
  obtain ⟨w, suspends⟩ := suspends_suspended hs hi hr hsel due armed
  generalize c'.suspended i arms deadline = d at suspends
  refine ⟨.inl ⟨c', w, changes, suspends⟩, fun stack hc => ?_⟩
  obtain ⟨hi₁, hr₁, -⟩ := suspends
  -- The instance is suspended, and what has begun are its children, which have to run next.
  refine Calm.insert (fun k j hj hrun => ?_) hi₁ hr₁ rfl
  rcases expands.new k j hj with ⟨j₀, hj₀, more, rfl⟩ | ⟨hk, -⟩
  · exact List.mem_append_right _ (hc k j₀ hj₀ hrun)
  · exact List.mem_append_left _ hk

/-- Whoever starts another instance is not suspended for that. -/
theorem waitOf?_start {child : InstanceId} {flow args isDetached}
    (hs : c.toSession.Sound) (hi : c.instances.get? id = some i) (hr : i.phase = .running)
    (h : (c.goto id (i.pc + 1)).spawn flow args (some id) isDetached = some (child, c')) :
    c'.toSession.waitOf? id = none := by
  -- The instance is another one than the one that begins.
  obtain ⟨compiled, depth, hchild, -⟩ := get?_spawn h
  have older := Id.ne_next (hs.instances _ _ hi).begun
  rw [waitOf?_spawn h (hchild ▸ older)]
  exact (goesOn_goto hi hr (i.pc + 1)).waitOf?

theorem executes_start {child : InstanceId} {flow args isDetached}
    (hs : c.toSession.Sound) (hi : c.instances.get? id = some i) (hr : i.phase = .running)
    (h : (c.goto id (i.pc + 1)).spawn flow args (some id) isDetached = some (child, c')) :
    Executes id [child] c c' := by
  have moved := goesOn_goto hi hr (i.pc + 1)
  have live : ∀ p, some id = some p → ((c.goto id (i.pc + 1)).instances.get? p).isSome := by
    rintro p hp
    obtain rfl := Option.some.inj hp
    rw [goto, change_eq hi]
    simp
  exact ⟨.inr ⟨moved.changes.tail (.begin h live), waitOf?_start hs hi hr h⟩, fun stack hc =>
    (moved.calm stack hc).spawn h⟩

/-- A shared variable is assigned, and the instance moves on. -/
theorem goesOn_share (hi : c.instances.get? id = some i) (hr : i.phase = .running) (var : String)
    (v : Value) :
    GoesOn id c (({ c with context := c.context.insert var v } : Cascade).goto id (i.pc + 1)) :=
  .note (fun _ h => h) (fun _ h => .inl h)
    (goesOn_goto (c := { c with context := c.context.insert var v }) hi hr (i.pc + 1))

/-- A variable of the instance is assigned, and it moves on. -/
theorem goesOn_bind (hi : c.instances.get? id = some i) (hr : i.phase = .running) (var : String)
    (v : Value) :
    GoesOn id c ((c.change id fun i => { i with locals := i.locals.insert var v }).goto id
      (i.pc + 1)) := by
  let i₁ : Instance := { i with locals := i.locals.insert var v }
  let c₁ : Cascade := { c with instances := c.instances.insert id i₁ }
  have bound : GoesOn id c c₁ := goesOn_insert hi hr fun _ h => Table.contains_insert h var v
  have moved : GoesOn id c₁ (c₁.goto id (i.pc + 1)) :=
    goesOn_goto (i := i₁) (Table.get?_insert_self c.instances id i₁) hr (i.pc + 1)
  rw [change_eq hi]
  exact bound.trans moved

/-- An event is sent, and the instance moves on. -/
theorem goesOn_send (hi : c.instances.get? id = some i) (hr : i.phase = .running) (depth : Nat)
    (e : Event) : GoesOn id c ((c.produce (some (id, depth)) e).goto id (i.pc + 1)) := by
  refine .note (fun p hp => by simp [hp]) (fun p hp => ?_)
    (goesOn_goto (c := c.produce (some (id, depth)) e) hi hr (i.pc + 1))
  rcases Array.mem_push.1 hp with hp | rfl
  · exact .inl hp
  · exact .inr rfl

theorem goesOn_complete (hs : c.toSession.Sound) (hi : c.instances.get? id = some i)
    (hr : i.phase = .running) : GoesOn id c (c.complete id) := by
  have awake := Instance.wait?_of_running hr
  have prunes := prunes_complete hs hi awake
  refine ⟨.single (.prune prunes), ?_, fun _ h => h.survivors prunes.removes.survivors⟩
  rw [Session.waitOf?, get?_complete_self hs hi awake]
  rfl

theorem execute_ok {instr : Instr} {children : List InstanceId} (hs : c.toSession.Sound)
    (hi : c.instances.get? i.id = some i) (hr : i.phase = .running)
    (hinstr : i.flow.program.get? i.pc = some instr ∨ instr = .finish)
    (h : c.execute i instr = (c', .ok children)) : Executes i.id children c c' := by
  cases carriesOut_execute h with
  | suspend due armed =>
    exact executes_suspended hs hi hr (hinstr.resolve_right (by simp)) due armed
  | start _ spawned => exact executes_start hs hi hr spawned
  | send => exact (goesOn_send hi hr _ _).executes []
  | share => exact (goesOn_share hi hr _ _).executes []
  | bind => exact (goesOn_bind hi hr _ _).executes []
  | branch => exact (goesOn_goto hi hr _).executes []
  | jump => exact (goesOn_goto hi hr _).executes []
  | finish => exact (goesOn_complete hs hi hr).executes []

/-- Some leads of a `select` may have been started before the one that fails. -/
theorem fails_armAll {arms : List Arm} {e : FlowError} (hs : c.toSession.Sound)
    (hi : c.instances.get? i.id = some i) (h : c.armAll i arms = (c', .error e)) :
    Fails i.id c c' := by
  obtain ⟨changes, expands⟩ := armAll_error hs (by rw [hi]; rfl) h
  refine ⟨changes, fun stack hc k j hj hrun => ?_⟩
  rcases expands.new k j hj with ⟨j₀, hj₀, more, rfl⟩ | ⟨-, hp, hd⟩
  · exact .inl (hc k j₀ hj₀ hrun)
  · exact .inr ⟨hp, hd⟩

theorem execute_error {instr : Instr} {e : FlowError} (hs : c.toSession.Sound)
    (hi : c.instances.get? i.id = some i) (hr : i.phase = .running)
    (h : c.execute i instr = (c', .error e)) : Fails i.id c c' := by
  cases carriesOut_execute h with
  | unbound | beyond | abort => exact .refl i.id c
  | stall failed => exact fails_armAll hs hi failed
  | missing => exact (goesOn_goto hi hr _).fails

/-! ## Steps -/

/-- A step suspends its instance, or leaves it running, or is its end. -/
theorem step_cases (hs : c.toSession.Sound) (hi : c.instances.get? i.id = some i)
    (hr : i.phase = .running) :
    (∃ c₁ w, Changes c c₁ ∧ c₁.Suspends i.id w (c.step i).1) ∨
      Changes c (c.step i).1 ∧ (c.step i).1.toSession.waitOf? i.id = none := by
  unfold step
  split
  · next h => exact (execute_ok hs hi hr (i.flow.get?_or_finish i.pc) h).outcome
  · next c₁ e h =>
    have changes := (execute_error hs hi hr h).changes
    have hs₁ := Changes.sound changes hs
    refine .inr ⟨changes.trans (changes_terminate hs₁ i.id e true), ?_⟩
    rw [Session.waitOf?, get?_terminate_self hs₁]
    rfl

/-- What runs after a step has run before, or has to run next. What an instruction has started
before it failed goes down with its instance. -/
theorem calm_step (hs : c.toSession.Sound) (hl : c.toSession.Linked)
    (hi : c.instances.get? i.id = some i) (hr : i.phase = .running) (hc : Calm stack c) :
    Calm ((c.step i).2 ++ stack) (c.step i).1 := by
  unfold step
  split
  · next h => exact (execute_ok hs hi hr (i.flow.get?_or_finish i.pc) h).calm stack hc
  · next c₁ e h =>
    obtain ⟨changes, running⟩ := execute_error hs hi hr h
    have hs₁ := Changes.sound changes hs
    have ending := changes_terminate hs₁ i.id e true
    have hl₂ := Changes.linked ending hs₁ (Changes.linked changes hs hl)
    intro k j' hj' hrun
    obtain ⟨j, hj, left⟩ := survivors_terminate hs₁ i.id e true k j' hj'
    -- What has begun before the failure is a child of the instance that may not outlive it. If it
    -- were still live, so would be the instance.
    rcases running stack hc k j hj (left.phase ▸ hrun) with hk | ⟨hp, hd⟩
    · exact hk
    · obtain ⟨p, hp, -⟩ := hl₂ k j' i.id hj' ((left.parent_eq hd).trans hp)
        (left.isDetached.trans hd)
      rw [get?_terminate_self hs₁] at hp
      cases hp

end Cascade

end Dialogue
