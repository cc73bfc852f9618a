import Dialogue.Proofs.Equality
import Dialogue.Proofs.Session.Isolation
import Dialogue.Proofs.Session.Stride

/-!
# Parameters are constant

The variables of an instance are written when it begins, when it assigns one, and when it goes on
after a wait with what that has bound. A parameter of its flow is protected from the last of these:
bindings are compared with what is held, and if they differ from it the instance is ended before
anything of it is touched. So a parameter that the flow itself does not assign keeps its value, once
it has one.

## Main definitions

* `CompiledFlow.Assigns` — a flow assigns a variable of its instances
* `Instance.Conflicts` — bindings would give a parameter a second value
* `Instance.Keeps` — parameters that are not assigned have their values still
* `Cascade.Maintains` — all instances keep theirs
* `Arm.bound`, `Resolution.Binds` — what an event binds for the arm that it resolves

## Main results

* `checkBindings_eq_ok_iff`, `exists_conflicts_of_checkBindings` — what is checked
* `Cascade.maintains_step`, `Cascade.maintains_relocate` — instructions and bindings
* `Cascade.keeps_of_strides` — what an instance keeps in the course of a run
* `Cascade.binds_of_mem_consumers` — those who take an event go on with what it binds
* `Session.parameters_constant` — parameters are constant, and conflicts end their instances
-/

namespace Dialogue

open Relation (ReflTransGen)

/-! ## Conflicts -/

/-- A flow assigns a variable of its instances. -/
def CompiledFlow.Assigns (f : CompiledFlow) (var : String) : Prop :=
  ∃ value, f.Has (.assign var value false)

/-- Bindings give a parameter that is not null another value. -/
structure Instance.Conflicts (i : Instance) (bindings : Params) (p : String)
    (existing incoming : Value) : Prop where
  parameter : i.isParameter p = true
  held : i.locals.get? p = some existing
  notNull : existing.isNull = false
  bound : bindings.get? p = some incoming
  differs : (existing == incoming) = false

section Checking

variable {i : Instance} {bindings : Params} {p : String} {v : Value} {e : FlowError}

theorem conflict?_eq_some_iff {w : Value} (bound : bindings.get? p = some w) :
    conflict? i.locals i.isParameter (p, w) = some e ↔
      ∃ v, i.Conflicts bindings p v w ∧ .bindingConflict p v w = e := by
  constructor
  · intro h
    unfold conflict? at h
    split at h
    · next parameter =>
      split at h
      · next v held =>
        split at h
        · next differs =>
          simp only [Bool.and_eq_true, Bool.not_eq_true', bne] at differs
          exact ⟨v, ⟨parameter, held, differs.1, bound, differs.2⟩, Option.some.inj h⟩
        · cases h
      · cases h
    · cases h
  · rintro ⟨v, conflict, rfl⟩
    simp [conflict?, conflict.parameter, conflict.held, conflict.notNull, conflict.differs, bne]

/-- Bindings are rejected because of a conflict. -/
theorem exists_conflicts_of_checkBindings
    (h : checkBindings i.locals bindings i.isParameter = .error e) :
    ∃ p v w, i.Conflicts bindings p v w ∧ .bindingConflict p v w = e := by
  unfold checkBindings at h
  split at h
  · next found =>
    obtain rfl := Except.error.inj h
    obtain ⟨⟨p, w⟩, mem, conflict⟩ := List.exists_of_findSome?_eq_some found
    obtain ⟨v, conflicts⟩ := (conflict?_eq_some_iff (Table.mem_entries.1 mem)).1 conflict
    exact ⟨p, v, w, conflicts⟩
  · cases h

/-- Bindings are accepted if there is no conflict, and only then. -/
theorem checkBindings_eq_ok_iff :
    checkBindings i.locals bindings i.isParameter = .ok () ↔
      ∀ p v w, ¬ i.Conflicts bindings p v w := by
  constructor
  · intro h p v w conflict
    unfold checkBindings at h
    split at h
    · cases h
    · next none =>
      have accepted := List.findSome?_eq_none_iff.1 none (p, w) (Table.mem_entries.2 conflict.bound)
      rw [(conflict?_eq_some_iff conflict.bound).2 ⟨v, conflict, rfl⟩] at accepted
      cases accepted
  · intro h
    cases check : checkBindings i.locals bindings i.isParameter with
    | ok _ => rfl
    | error e =>
      obtain ⟨p, v, w, conflict, -⟩ := exists_conflicts_of_checkBindings check
      exact absurd conflict (h p v w)

end Checking

/-! ## What an instance keeps -/

/-- The parameters that the flow does not assign have the values still that they have had. -/
structure Instance.Keeps (i i' : Instance) : Prop where
  flow : i'.flow = i.flow
  parameters : ∀ p v, i.isParameter p = true → ¬ i.flow.Assigns p → i.locals.get? p = some v →
    v.isNull = false → ∃ v', i'.locals.get? p = some v' ∧ v.Alike v'

namespace Instance.Keeps

variable {i i' i'' : Instance}

theorem of_eq (flow : i'.flow = i.flow) (locals : i'.locals = i.locals) : i.Keeps i' :=
  ⟨flow, fun _ v _ _ held _ => ⟨v, locals ▸ held, .refl v⟩⟩

theorem refl (i : Instance) : i.Keeps i := of_eq rfl rfl

theorem trans (h : i.Keeps i') (h' : i'.Keeps i'') : i.Keeps i'' where
  flow := h'.flow.trans h.flow
  parameters p v parameter unassigned held notNull := by
    obtain ⟨v', held', alike⟩ := h.parameters p v parameter unassigned held notNull
    -- What is held in between is not null either, so it is protected in its turn.
    have parameter' : i'.isParameter p = true := by rwa [isParameter, h.flow]
    obtain ⟨v'', held'', alike'⟩ := h'.parameters p v' parameter' (h.flow ▸ unassigned) held'
      (alike.isNull_eq.trans notNull)
    exact ⟨v'', held'', alike.trans alike'⟩

theorem of_left {s : Session} (h : i.Left s i') : i.Keeps i' := of_eq h.flow h.locals

/-- An instance that assigns a variable keeps the others. -/
theorem assign {var : String} {value : Expr} (has : i.flow.Has (.assign var value false))
    (v : Value) : i.Keeps { i with locals := i.locals.insert var v } where
  flow := rfl
  parameters p w _ unassigned held _ := by
    have other : p ≠ var := by
      rintro rfl
      exact unassigned ⟨value, has⟩
    exact ⟨w, (Table.get?_insert_of_ne other).trans held, .refl w⟩

/-- Bindings that have been checked change no value that a parameter has. -/
theorem bind {bindings : Params} (pc : Nat)
    (checked : checkBindings i.locals bindings i.isParameter = .ok ()) :
    i.Keeps { i with
      locals := bindings.entries.foldl (fun locals e => locals.insert e.1 e.2) i.locals
      pc
      phase := .running } where
  flow := rfl
  parameters p v parameter _ held notNull := by
    have contained : i.locals.contains p = true := by rw [Table.contains, held]; rfl
    obtain ⟨w, hw⟩ := Option.isSome_iff_exists.1
      (Table.contains_foldl_insert bindings.entries (.inl contained))
    refine ⟨w, hw, ?_⟩
    -- Either nothing is bound to the parameter, or what is bound has been compared with the value.
    rcases Table.mem_of_foldl_insert bindings.entries hw with still | bound
    · obtain rfl := Option.some.inj (held.symm.trans still)
      exact .refl v
    · by_contra unlike
      have differs : (v == w) = false := Bool.eq_false_iff.2 fun same => unlike (.inr same)
      exact checkBindings_eq_ok_iff.1 checked p v w
        ⟨parameter, held, notNull, Table.mem_entries.1 bound, differs⟩

end Instance.Keeps

namespace Cascade

variable {c c' c'' : Cascade} {id : InstanceId} {i : Instance} {w : Wait}

/-- Whoever has begun and is still live has kept its parameters. -/
structure Maintains (c c' : Cascade) : Prop where
  created : c.created ≤ c'.created
  instances : ∀ k j', k.number ≤ c.created → c'.instances.get? k = some j' →
    ∃ j, c.instances.get? k = some j ∧ j.Keeps j'

namespace Maintains

theorem of_eq (created : c'.created = c.created) (instances : c'.instances = c.instances) :
    Maintains c c' :=
  ⟨Nat.le_of_eq created.symm, fun _ j _ hj => ⟨j, instances ▸ hj, .refl j⟩⟩

theorem refl (c : Cascade) : Maintains c c := of_eq rfl rfl

theorem trans (h : Maintains c c') (h' : Maintains c' c'') : Maintains c c'' where
  created := Nat.le_trans h.created h'.created
  instances k j'' begun hj'' := by
    obtain ⟨j', hj', keeps'⟩ := h'.instances k j'' (Nat.le_trans begun h.created) hj''
    obtain ⟨j, hj, keeps⟩ := h.instances k j' begun hj'
    exact ⟨j, hj, keeps.trans keeps'⟩

theorem of_survivors (created : c.created ≤ c'.created)
    (survivors : c.toSession.Survivors c'.toSession) : Maintains c c' where
  created
  instances k j' _ hj' := by
    obtain ⟨j, hj, left⟩ := survivors k j' hj'
    exact ⟨j, hj, .of_left left⟩

end Maintains

/-! ### Beginning, changing and ending -/

theorem maintains_spawn {flow args parent isDetached}
    (h : c.spawn flow args parent isDetached = some (id, c')) : Maintains c c' where
  created := by
    rw [(spawn_frame h).1]
    exact Nat.le_succ _
  instances k j' begun hj' := by
    obtain ⟨compiled, depth, rfl, hget, -⟩ := get?_spawn h
    rw [hget, if_neg (Id.ne_next begun)] at hj'
    obtain ⟨j, hj, rfl⟩ := Option.map_eq_some_iff.1 hj'
    refine ⟨j, hj, ?_⟩
    split <;> exact .of_eq rfl rfl

theorem maintains_change {f : Instance → Instance}
    (keeps : ∀ j, c.instances.get? id = some j → j.Keeps (f j)) : Maintains c (c.change id f) where
  created := Nat.le_refl _
  instances k j' _ hj' := by
    rw [change, Table.get?_modify] at hj'
    split at hj'
    · next same =>
      obtain ⟨j, hj, rfl⟩ := Option.map_eq_some_iff.1 hj'
      exact ⟨j, hj, keeps j (same ▸ hj)⟩
    · exact ⟨j', hj', .refl j'⟩

theorem maintains_goto (c : Cascade) (id : InstanceId) (pc : Nat) : Maintains c (c.goto id pc) :=
  maintains_change fun _ _ => .of_eq rfl rfl

theorem maintains_terminate (hs : c.toSession.Sound) (root : InstanceId) (error : FlowError)
    (isReported : Bool) : Maintains c (c.terminate root error isReported) :=
  .of_survivors (Changes.later (changes_terminate hs root error isReported)).created
    (survivors_terminate hs root error isReported)

/-! ### Instructions -/

theorem maintains_armLead {lead : Lead} {r : Except FlowError Armed}
    (h : c.armLead i lead = (c', r)) : Maintains c c' := by
  cases startsLead_armLead h with
  | event | unbound | missing => exact .refl c
  | child _ spawned => exact maintains_spawn spawned
  | call => exact .of_eq rfl rfl

theorem maintains_armAll {arms : List Arm} {r : Except FlowError (List Armed)}
    (h : c.armAll i arms = (c', r)) : Maintains c c' := by
  induction arms generalizing c r with
  | nil =>
    cases startsLeads_armAll h with
    | nil => exact .refl _
  | cons arm rest ih =>
    cases startsLeads_armAll h with
    | fail => exact .refl _
    | stall first others | cons first others => exact (maintains_armLead first).trans (ih others)

theorem maintains_suspended (c : Cascade) (i : Instance) (arms : List Armed)
    (deadline : Option Instant) : Maintains c (c.suspended i arms deadline) := by
  obtain ⟨timer, timers, eq⟩ := exists_suspended_eq c i arms deadline
  have timed : Maintains c { c with timers } := .of_eq rfl rfl
  rw [eq]
  exact timed.trans (maintains_change fun _ _ => .of_eq rfl rfl)

/-- What an instance assigns is written in its flow, and nothing else writes a variable. -/
theorem maintains_execute {instr : Instr} {r : Except FlowError (List InstanceId)}
    (hs : c.toSession.Sound) (live : c.instances.get? i.id = some i) (awake : i.wait? = none)
    (has : i.flow.Has instr ∨ instr = .finish) (h : c.execute i instr = (c', r)) :
    Maintains c c' := by
  cases carriesOut_execute h with
  | unbound | beyond | abort => exact .refl c
  | stall failed => exact maintains_armAll failed
  | suspend _ armed => exact (maintains_armAll armed).trans (maintains_suspended ..)
  | @send event _ values =>
    have said : Maintains c (c.produce (some (i.id, i.depth)) (Event.new event values)) :=
      .of_eq rfl rfl
    exact said.trans (maintains_goto _ i.id _)
  | missing => exact maintains_goto c i.id _
  | start _ spawned => exact (maintains_goto c i.id _).trans (maintains_spawn spawned)
  | @share var _ v =>
    have shared : Maintains c { c with context := c.context.insert var v } := .of_eq rfl rfl
    exact shared.trans (maintains_goto _ i.id _)
  | @bind var value v =>
    have written : i.flow.Has (.assign var value false) := has.resolve_right (by simp)
    -- Only an instance itself assigns to its variables.
    have assigned : Maintains c
        (c.change i.id fun i => { i with locals := i.locals.insert var v }) :=
      maintains_change fun j hj => by
        obtain rfl := Option.some.inj (live.symm.trans hj)
        exact .assign written v
    exact assigned.trans (maintains_goto _ i.id _)
  | branch | jump => exact maintains_goto c i.id _
  | finish =>
    have ended := prunes_complete hs live awake
    have changes : Changes c (c.complete i.id) := .single (.prune ended)
    exact .of_survivors (Changes.later changes).created ended.removes.survivors

theorem maintains_step (hs : c.toSession.Sound) (live : c.instances.get? i.id = some i)
    (running : i.phase = .running) : Maintains c (c.step i).1 := by
  have awake := Instance.wait?_of_running running
  unfold step
  split
  · next done => exact maintains_execute hs live awake (i.flow.has_getD i.pc) done
  · next failed =>
    have hs₁ := Changes.sound (execute_error hs live running failed).changes hs
    exact (maintains_execute hs live awake (i.flow.has_getD i.pc) failed).trans
      (maintains_terminate hs₁ i.id _ true)

/-! ### Going on after a wait -/

theorem Wakes.maintains (h : c.Wakes id w c') : Maintains c c' where
  created := by
    obtain ⟨-⟩ := h
    exact Nat.le_refl _
  instances k j' _ hj' := by
    obtain ⟨live, -⟩ := h
    rw [Table.get?_insert] at hj'
    split at hj'
    · next same =>
      subst same
      obtain rfl := Option.some.inj hj'
      exact ⟨_, live, .of_eq rfl rfl⟩
    · exact ⟨j', hj', .refl j'⟩

theorem maintains_disarm (hs : c.toSession.Sound) (live : c.instances.get? id = some i)
    (waiting : i.wait? = some w) (kept : Option Nat) : Maintains c (c.disarm i kept) := by
  obtain ⟨c₁, wakes, changes, survivors⟩ := (disarms hs live waiting kept).wakes
  exact wakes.maintains.trans (.of_survivors (Changes.later changes).created survivors)

theorem maintains_relocate (pc : Nat) {bindings : Params}
    (checked : ∀ i, c.instances.get? id = some i →
      checkBindings i.locals bindings i.isParameter = .ok ()) :
    Maintains c (c.relocate id pc bindings) :=
  maintains_change fun j hj => .bind pc (checked j hj)

/-! ## Strides -/

theorem Stride.maintains (h : c.Stride c') (hs : c.toSession.Sound) : Maintains c c' := by
  cases h with
  | launch h => exact maintains_spawn h
  | step live running => exact maintains_step hs live running
  | terminate id error isReported => exact maintains_terminate hs id error isReported
  | disarm live waiting kept => exact maintains_disarm hs live waiting kept
  | relocate _ pc checked => exact maintains_relocate pc checked
  | aside h => exact .of_eq h.created h.instances
  | close reason =>
    refine .of_survivors (Stride.later (.close reason) hs).created ?_
    exact c.toSession.survivors_idle (.close reason)

theorem maintains_of_strides (h : Strides c c') (hc : c.toSession.Coherent) : Maintains c c' := by
  induction h with
  | refl => exact .refl c
  | tail first last ih => exact ih.trans (last.maintains (coherent_of_strides first hc).sound)

/-- Whoever is live at two times has kept its parameters in between. -/
theorem keeps_of_strides {i' : Instance} (h : Strides c c') (hc : c.toSession.Coherent)
    (hi : c.instances.get? id = some i) (hi' : c'.instances.get? id = some i') : i.Keeps i' := by
  obtain ⟨j, hj, keeps⟩ :=
    (maintains_of_strides h hc).instances id i' (hc.sound.instances id i hi).begun hi'
  obtain rfl := Option.some.inj (hi.symm.trans hj)
  exact keeps

end Cascade

/-! ## What an event binds -/

/-- What an arm binds when an event is what it has waited for: the captured parameters, or the
result of its action. -/
def Arm.bound (arm : Arm) (e : Event) : Params :=
  match arm.lead with
  | .event pattern => pattern.captured e
  | .flow _ _ => ∅
  | .action _ _ result =>
    Table.ofList (result.map fun var => (var, (e.parameter? "result").getD .null)).toList

/-- What is bound at the end of a wait is what the arm says. -/
def Resolution.Binds (e : Event) : Resolution → Prop
  | .arm _ resolved bindings => bindings = resolved.bound e
  | .failure _ _ _ => True
  | .timeout _ => True

/-- The same for what is made of an event. -/
def Candidate.Binds (e : Event) : Candidate → Prop
  | .addressed r => r.Binds e
  | .claim w => w.bindings = w.arm.bound e

section Binding

variable {e : Event} {id : InstanceId} {i : Instance} {scope : Scope} {found : Candidate}

theorem Pattern.bindings_of_match? {p : Pattern} {m : Match}
    (h : p.match? e scope = .ok (some m)) : m.bindings = p.captured e := by
  unfold match? at h
  split at h
  · cases h
  · cases admitted : p.admits e scope p.params.entries with
    | error err => simp [admitted, bind, Except.bind] at h
    | ok holds =>
      rw [admitted] at h
      cases holds with
      | false => cases h
      | true =>
        obtain rfl := Option.some.inj (Except.ok.inj h)
        rfl

theorem Arm.binds_of_candidate? {arm : Arm} {a : Armed} {index : Nat}
    (kind : arm.lead.IsArmedAs a) (h : arm.candidate? a id index e scope = .ok (some found)) :
    found.Binds e := by
  cases makes_candidate? h with
  | claims lead matching =>
    rw [Candidate.Binds, bound, lead]
    exact Pattern.bindings_of_match? matching
  | finished =>
    -- An arm that waits for another instance binds nothing.
    obtain ⟨flow, args, lead⟩ : ∃ flow args, arm.lead = .flow flow args := by
      cases lead : arm.lead with
      | flow flow args => exact ⟨flow, args, rfl⟩
      | event pattern => rw [lead] at kind; exact kind.elim
      | action name params result => rw [lead] at kind; exact kind.elim
    rw [Candidate.Binds, Resolution.Binds, bound, lead]
  | answered lead => rw [Candidate.Binds, Resolution.Binds, bound, lead]
  | failed | refused => trivial

theorem Instance.binds_of_candidate? {w : Wait} (hw : i.wait? = some w) (fits : w.Fits i)
    (h : i.candidate? e scope = .ok (some found)) : found.Binds e := by
  obtain ⟨w', s, hw', selected, ⟨-, late⟩ | ⟨n, arm, a, harm, ha, asked⟩⟩ :=
    exists_of_candidate? h (by simp)
  · obtain rfl := Option.some.inj (Except.ok.inj late)
    trivial
  · obtain rfl := Option.some.inj (hw.symm.trans hw')
    obtain ⟨s', place, kinds, -⟩ := fits.select
    obtain rfl : s' = s := by
      simpa [select?, hw, fits.place, place] using selected
    have both : (arm, a) ∈ s'.arms.zip w.arms :=
      List.mem_of_getElem? (List.getElem?_zip_eq_some.2 ⟨harm, ha⟩)
    exact Arm.binds_of_candidate? ((List.forall₂_iff_zip.1 kinds).2 both) asked

/-- Whoever takes an event goes on with what the arm binds that it is taken for. -/
theorem Cascade.binds_of_mem_consumers {c : Cascade} {r : Resolution} (hs : c.toSession.Sound)
    (h : (id, r) ∈ c.consumers e) : r.Binds e := by
  have binds {found : Candidate} (mem : (id, .ok (some found)) ∈ c.candidates e) :
      found.Binds e := by
    obtain ⟨i, hi, waiting, asked⟩ := (mem_candidates_iff hs).1 mem
    obtain ⟨w, hw⟩ := Option.isSome_iff_exists.1 waiting
    exact Instance.binds_of_candidate? hw (hs.wait hi hw).fits asked
  rcases (mem_consumers_iff hs).1 h with addressed | ⟨w, winner, rfl, rfl⟩
  · exact binds addressed
  · exact binds ((mem_claims_iff hs).1 (wins_of_mem_winners hs winner).mem)

end Binding

/-! ## Runs -/

namespace Cascade

variable {c : Cascade} {i : Instance} {w : Wait}

/-- Bindings that conflict with a parameter end the instance before anything else happens. -/
theorem resume_of_conflicts (hi : c.instances.get? i.id = some i) (hw : i.wait? = some w)
    (index : Nat) (arm : Arm) {bindings : Params}
    (conflicting : ∃ p v v', i.Conflicts bindings p v v') :
    ∃ p v v', i.Conflicts bindings p v v' ∧
      c.resume i.id (.arm index arm bindings) =
        c.terminate i.id (.bindingConflict p v v') true ∧
      c.resumeHistory i.id (.arm index arm bindings) = [] := by
  cases check : checkBindings i.locals bindings i.isParameter with
  | ok _ =>
    obtain ⟨p, v, v', conflict⟩ := conflicting
    exact absurd conflict (checkBindings_eq_ok_iff.1 check p v v')
  | error e =>
    obtain ⟨p, v, v', conflict, rfl⟩ := exists_conflicts_of_checkBindings check
    refine ⟨p, v, v', conflict, ?_, ?_⟩
    · simp [resume, hi, Instance.isWaiting, hw, check]
    · simp [resumeHistory, hi, hw, check]

theorem resume_of_not_conflicts (hi : c.instances.get? i.id = some i) (hw : i.wait? = some w)
    (index : Nat) (arm : Arm) {bindings : Params}
    (agree : ∀ p v v', ¬ i.Conflicts bindings p v v') :
    c.resume i.id (.arm index arm bindings) =
      (c.disarm i (some index)).advance i.id arm.resume bindings := by
  simp [resume, hi, Instance.isWaiting, hw, checkBindings_eq_ok_iff.2 agree]

/-- Those who take an event go on one after the other, each in a state that its predecessors have
left. -/
theorem deliver_eq_of_consumers (hc : c.toSession.Coherent) {e : Event} {id : InstanceId}
    {r : Resolution} {pre post : List (InstanceId × Resolution)}
    (taken : c.consumers e = pre ++ (id, r) :: post) :
    Strides c (pre.foldl (fun c r => c.resume r.1 r.2) (c.purge e)) ∧
      c.deliver e = post.foldl (fun c r => c.resume r.1 r.2)
        ((pre.foldl (fun c r => c.resume r.1 r.2) (c.purge e)).resume id r) := by
  have purged := strides_purge c e
  refine ⟨purged.trans (trail_foldl_resume (coherent_of_strides purged hc) pre).strides, ?_⟩
  rw [deliver_eq, taken, List.foldl_append, List.foldl_cons]

end Cascade

namespace Session

open Cascade (Strides)

/-- The states of a run come from one another by strides. Once an instance holds a value that is not
null for a parameter that its flow does not assign, it holds this value, or one that is equal to it,
as long as it is live.

Those who take an event go on one after the other, with what the event binds for the arm that has
waited for it. Bindings that would give a parameter another value end the instance with this
conflict as its error. That happens in the state in which the bindings have come: the instance goes
down as it is, with all that it waits for, and it is reported as a failure of the turn. -/
theorem parameters_constant (name : String) (library : FlowLibrary) (limits : Limits)
    (context : Params) :
    let s₀ := new name library limits context
    (∀ os os', let s := s₀.applyAll os
      Strides s₀.openCascade s.openCascade ∧
        (s.openCascade :: (s.historyOf os').flatMap Moment.states ++
          [(s.applyAll os').openCascade]).Pairwise Strides) ∧
    (∀ c d, Strides s₀.openCascade c → Strides c d → ∀ id i i',
      c.instances.get? id = some i → d.instances.get? id = some i' →
        i'.flow = i.flow ∧ ∀ p v, i.isParameter p = true → ¬ i.flow.Assigns p →
          i.locals.get? p = some v → v.isNull = false →
            ∃ v', i'.locals.get? p = some v' ∧ (v' = v ∨ (v == v') = true)) ∧
    (∀ c, Strides s₀.openCascade c → ∀ e pre id r post, c.consumers e = pre ++ (id, r) :: post →
      let d := pre.foldl (fun c r => c.resume r.1 r.2) (c.purge e)
      Strides c d ∧ c.deliver e = post.foldl (fun c r => c.resume r.1 r.2) (d.resume id r) ∧
        ∀ index arm bindings, r = .arm index arm bindings → bindings = arm.bound e) ∧
    (∀ c, Strides s₀.openCascade c → ∀ i w, c.instances.get? i.id = some i → i.wait? = some w →
      ∀ index arm bindings,
        ((∃ p v v', i.Conflicts bindings p v v') → ∃ p v v', i.Conflicts bindings p v v' ∧
          let error := FlowError.bindingConflict p v v'
          c.resume i.id (.arm index arm bindings) = c.terminate i.id error true ∧
            c.resumeHistory i.id (.arm index arm bindings) = [] ∧
              ∃ doomed, c.TakesDown i error true doomed (c.terminate i.id error true)) ∧
        ((∀ p v v', ¬ i.Conflicts bindings p v v') →
          c.resume i.id (.arm index arm bindings) =
            (c.disarm i (some index)).advance i.id arm.resume bindings)) := by
  intro s₀
  have new : s₀.Coherent := coherent_new name library limits context
  have coherent {c : Cascade} (h : Strides s₀.openCascade c) : c.toSession.Coherent :=
    Cascade.coherent_of_strides h new
  -- Each part is an instance of what holds of all strides from a coherent state.
  refine ⟨fun os os' => ?_, fun c d hc hd id i i' hi hi' => ?_,
    fun c hc e pre id r post taken => ?_, fun c hc i w hi hw index arm bindings =>
      ⟨fun conflicting => ?_, fun agree => ?_⟩⟩
  · have before := (trail_historyOf new os).strides
    exact ⟨before, trail_historyOf (coherent before) os'⟩
  · have keeps := Cascade.keeps_of_strides hd (coherent hc) hi hi'
    exact ⟨keeps.flow, keeps.parameters⟩
  · obtain ⟨turn, delivered⟩ := Cascade.deliver_eq_of_consumers (coherent hc) taken
    refine ⟨turn, delivered, ?_⟩
    rintro index arm bindings rfl
    have takes : (id, .arm index arm bindings) ∈ c.consumers e := by simp [taken]
    exact Cascade.binds_of_mem_consumers (coherent hc).sound takes
  · obtain ⟨p, v, v', conflict, ended, quiet⟩ :=
      Cascade.resume_of_conflicts hi hw index arm conflicting
    exact ⟨p, v, v', conflict, ended, quiet, Cascade.exists_takesDown (coherent hc) hi _ true⟩
  · exact Cascade.resume_of_not_conflicts hi hw index arm agree

/-- A flow that is told a name and asks for it nevertheless. -/
def renamingFlows : List FlowDefinition :=
  [⟨"ask", ["name"], "",
    [.expect ⟨EventName.userSaid, ∅, Table.ofList [("text", "name")], false⟩]⟩]

/-- Whoever is told another name than before fails. -/
theorem parameters_constant_renaming :
    ∃ library, FlowLibrary.ofDefinitions Vocabulary.standard renamingFlows = .ok library ∧
      ∃ e c id index arm bindings, .delivered e c ∈ (new "session" library .standard ∅).historyOf
          [.startFlow "ask" (Table.ofList [("name", .string "Ada")]), .submit (.userSaid "Bob")] ∧
        (id, .arm index arm bindings) ∈ c.consumers e ∧ ∃ p v v',
          c.resume id (.arm index arm bindings) =
            c.terminate id (.bindingConflict p v v') true := by
  have run : (FlowLibrary.ofDefinitions Vocabulary.standard renamingFlows).toOption.any
      (fun library => ((new "session" library .standard ∅).historyOf
        [.startFlow "ask" (Table.ofList [("name", .string "Ada")]),
          .submit (.userSaid "Bob")]).any (Moment.delivers fun e c =>
            (c.consumers e).any fun r => match r.2 with
              | .arm _ _ bindings => (c.instances.get? r.1).any fun i => i.isWaiting &&
                  !(checkBindings i.locals bindings i.isParameter).isOk
              | _ => false)) = true := by decide +kernel
  obtain ⟨library, hlib, e, c, delivered, found⟩ := exists_delivered run
  obtain ⟨⟨id, r⟩, taken, conflicting⟩ := List.any_eq_true.1 found
  cases r with
  | failure => cases conflicting
  | timeout => cases conflicting
  | arm index arm bindings =>
    obtain ⟨i, hi, rejected⟩ := (Option.any_eq_true _ _).1 conflicting
    simp only [Bool.and_eq_true, Bool.not_eq_true'] at rejected
    obtain ⟨w, hw⟩ := Option.isSome_iff_exists.1 rejected.1
    obtain ⟨states, -, -, resumed⟩ := parameters_constant "session" library .standard ∅
    have told : c ∈ ((new "session" library .standard ∅).historyOf _).flatMap Moment.states :=
      List.mem_flatMap.2 ⟨_, delivered, List.mem_singleton_self c⟩
    -- The delivery stands in the history, so the state in which it happens is one that is reached.
    have reached := (List.pairwise_cons.1 (states [] _).2).1 c (List.mem_append_left _ told)
    obtain rfl : i.id = id := (Cascade.coherent_of_strides reached (coherent_new ..)).sound.id_eq hi
    have conflicting : ∃ p v v', i.Conflicts bindings p v v' := by
      by_contra agree
      have accepted := checkBindings_eq_ok_iff.2 fun p v v' h => agree ⟨p, v, v', h⟩
      rw [accepted] at rejected
      cases rejected.2
    obtain ⟨p, v, v', -, ended, -⟩ := (resumed c reached i w hi hw index arm bindings).1 conflicting
    exact ⟨library, hlib, e, c, i.id, index, arm, bindings, delivered, taken, p, v, v', ended⟩

end Session

end Dialogue
