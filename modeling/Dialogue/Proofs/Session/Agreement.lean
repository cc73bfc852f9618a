import Dialogue.Proofs.Session.History

/-!
# Sessions that agree

Nothing that a session does depends on which of the ended instances it remembers. Its bounds matter
in two places only, where an activation or a turn has used up what it is allowed. So all the rest is
done alike by two sessions that differ in nothing but their bounds and what they remember.

## Main definitions

* `Cascade.Agrees` — two cascades that differ in nothing else
* `Cascade.AgreesWith` — what two of them return, and what they are then

## Main results

* `Cascade.Agrees.step` — a step is made alike
* `Cascade.Agrees.terminate`, `Cascade.Agrees.disarm`, `Cascade.Agrees.settle` — and so is all that
  is no activation
-/

namespace Dialogue.Cascade

/-- Two cascades differ at most in their bounds, which are given for the second one, and in the
ended instances that they remember. -/
def Agrees (l : Limits) (c d : Cascade) : Prop := ∃ archive, d = { c with limits := l, archive }

/-- What is returned is the same, and the cascades agree. -/
inductive AgreesWith (l : Limits) {α : Type} : Cascade × α → Cascade × α → Prop
  | intro {c d : Cascade} (h : c.Agrees l d) (a : α) : AgreesWith l (c, a) (d, a)

namespace Agrees

variable {l : Limits} {c c' d d' : Cascade} {id : InstanceId}

/-! ## What is read -/

theorem limits (h : c.Agrees l d) : d.limits = l := by
  obtain ⟨_, rfl⟩ := h
  rfl

theorem library (h : c.Agrees l d) : d.library = c.library := by
  obtain ⟨_, rfl⟩ := h
  rfl

theorem instances (h : c.Agrees l d) : d.instances = c.instances := by
  obtain ⟨_, rfl⟩ := h
  rfl

theorem timers (h : c.Agrees l d) : d.timers = c.timers := by
  obtain ⟨_, rfl⟩ := h
  rfl

theorem calls (h : c.Agrees l d) : d.calls = c.calls := by
  obtain ⟨_, rfl⟩ := h
  rfl

theorem clock (h : c.Agrees l d) : d.clock = c.clock := by
  obtain ⟨_, rfl⟩ := h
  rfl

theorem scope (h : c.Agrees l d) : d.toSession.scope = c.toSession.scope := by
  obtain ⟨_, rfl⟩ := h
  rfl

theorem queue (h : c.Agrees l d) : d.queue = c.queue := by
  obtain ⟨_, rfl⟩ := h
  rfl

theorem produced (h : c.Agrees l d) : d.produced = c.produced := by
  obtain ⟨_, rfl⟩ := h
  rfl

/-! ## What is written -/

theorem notify (h : c.Agrees l d) (n : Notice) : (c.notify n).Agrees l (d.notify n) := by
  obtain ⟨archive, rfl⟩ := h
  exact ⟨archive, rfl⟩

theorem produce (h : c.Agrees l d) (speaker : Option (InstanceId × Nat)) (e : Event) :
    (c.produce speaker e).Agrees l (d.produce speaker e) := by
  obtain ⟨archive, rfl⟩ := h
  exact ⟨archive, rfl⟩

theorem change (h : c.Agrees l d) (id : InstanceId) (f : Instance → Instance) :
    (c.change id f).Agrees l (d.change id f) := by
  obtain ⟨archive, rfl⟩ := h
  exact ⟨archive, rfl⟩

theorem goto (h : c.Agrees l d) (id : InstanceId) (pc : Nat) :
    (c.goto id pc).Agrees l (d.goto id pc) :=
  h.change id _

theorem setTimers (h : c.Agrees l d) (timers : Timers) :
    Agrees l { c with timers } { d with timers } := by
  obtain ⟨archive, rfl⟩ := h
  exact ⟨archive, rfl⟩

theorem setCalls (h : c.Agrees l d) (calls : Calls) :
    Agrees l { c with calls } { d with calls } := by
  obtain ⟨archive, rfl⟩ := h
  exact ⟨archive, rfl⟩

theorem setQueue (h : c.Agrees l d) (queue : List Event) :
    Agrees l { c with queue } { d with queue } := by
  obtain ⟨archive, rfl⟩ := h
  exact ⟨archive, rfl⟩

theorem assign (h : c.Agrees l d) (var : String) (v : Value) :
    Agrees l { c with context := c.context.insert var v }
      { d with context := d.context.insert var v } := by
  obtain ⟨archive, rfl⟩ := h
  exact ⟨archive, rfl⟩

theorem fail (h : c.Agrees l d) (f : Failure) :
    Agrees l { c with failures := c.failures.push f } { d with failures := d.failures.push f } := by
  obtain ⟨archive, rfl⟩ := h
  exact ⟨archive, rfl⟩

theorem unlink (h : c.Agrees l d) (i : Instance) : (c.unlink i).Agrees l (d.unlink i) := by
  obtain ⟨archive, rfl⟩ := h
  exact ⟨archive, rfl⟩

/-- What is remembered may differ even if it has not before. -/
theorem retire (h : c.Agrees l d) (i : Instance) : (c.retire i).Agrees l (d.retire i) := by
  obtain ⟨archive, rfl⟩ := h
  exact ⟨_, rfl⟩

theorem foldl {α : Type} {f : Cascade → α → Cascade} (h : c.Agrees l d)
    (step : ∀ {c d} (a : α), c.Agrees l d → (f c a).Agrees l (f d a)) (as : List α) :
    (as.foldl f c).Agrees l (as.foldl f d) := by
  induction as generalizing c d with
  | nil => exact h
  | cons a rest ih => exact ih (step a h)

/-! ## The life of an instance -/

theorem spawn_eq_none {flow args parent isDetached} (h : c.Agrees l d)
    (hc : c.spawn flow args parent isDetached = none) :
    d.spawn flow args parent isDetached = none := by
  unfold Cascade.spawn at hc ⊢
  rw [h.library]
  split at hc
  · rfl
  · cases hc

theorem exists_spawn {flow args parent isDetached} (h : c.Agrees l d)
    (hc : c.spawn flow args parent isDetached = some (id, c')) :
    ∃ d', d.spawn flow args parent isDetached = some (id, d') ∧ c'.Agrees l d' := by
  obtain ⟨archive, rfl⟩ := h
  unfold Cascade.spawn at hc ⊢
  dsimp only at hc ⊢
  split at hc
  · cases hc
  · obtain ⟨rfl, rfl⟩ := Prod.mk.inj (Option.some.inj hc)
    exact ⟨_, rfl, archive, rfl⟩

theorem abort (h : c.Agrees l d) (id : InstanceId) (error : FlowError) :
    (c.abort id error).Agrees l (d.abort id error) := by
  obtain ⟨archive, rfl⟩ := h
  unfold Cascade.abort
  dsimp only
  split
  · exact ⟨archive, rfl⟩
  · exact ⟨_, rfl⟩

theorem terminate (h : c.Agrees l d) (root : InstanceId) (error : FlowError) (isReported : Bool) :
    (c.terminate root error isReported).Agrees l (d.terminate root error isReported) := by
  unfold Cascade.terminate
  rw [h.instances]
  split
  · exact h
  · next i _ =>
    have reported : Agrees l
        { c with failures :=
          if isReported then c.failures.push ⟨root, i.flowName, error⟩ else c.failures }
        { d with failures :=
          if isReported then d.failures.push ⟨root, i.flowName, error⟩ else d.failures } := by
      cases isReported with
      | true => exact h.fail ⟨root, i.flowName, error⟩
      | false => exact h
    let reason (id : InstanceId) : FlowError :=
      if id = root then error else .parentTerminated i.label
    exact foldl (f := fun c id => c.abort id (reason id)) reported
      (fun k h => h.abort k (reason k)) (Instance.subtree c.instances [root])

theorem terminateAll (h : c.Agrees l d) (ids : List InstanceId) (error : FlowError) :
    (c.terminateAll ids error).Agrees l (d.terminateAll ids error) :=
  h.foldl (fun id h => h.terminate id error false) ids

theorem complete (h : c.Agrees l d) (id : InstanceId) :
    (c.complete id).Agrees l (d.complete id) := by
  unfold Cascade.complete
  rw [h.instances]
  split
  · exact h
  · next i _ =>
    have erased : Agrees l { c with instances := c.instances.erase id }
        { d with instances := c.instances.erase id } := by
      obtain ⟨archive, rfl⟩ := h
      exact ⟨archive, rfl⟩
    exact ((((erased.unlink i).notify _).produce none _).retire _).terminateAll _ _

/-! ## Steps -/

theorem armLead (h : c.Agrees l d) (i : Instance) (lead : Lead) :
    AgreesWith l (c.armLead i lead) (d.armLead i lead) := by
  unfold Cascade.armLead
  rw [h.scope, h.calls]
  cases lead with
  | event pattern => exact .intro h _
  | flow name args =>
    dsimp only
    split
    · exact .intro h _
    · next values _ =>
      -- Both start an instance, or both fail for want of the flow.
      cases hc : c.spawn name values (some i.id) false with
      | none =>
        rw [h.spawn_eq_none hc]
        exact .intro h _
      | some started =>
        obtain ⟨d', hd, h'⟩ := h.exists_spawn hc
        rw [hd]
        exact .intro h' _
  | action name params result =>
    dsimp only
    split
    · exact .intro h _
    · exact .intro ((h.setCalls _).notify _) _

theorem armAll (i : Instance) : ∀ (arms : List Arm) {c d : Cascade}, c.Agrees l d →
    AgreesWith l (c.armAll i arms) (d.armAll i arms)
  | [], _, _, h => .intro h _
  | arm :: rest, c, d, h => by
    have first := h.armLead i arm.lead
    unfold Cascade.armAll
    generalize c.armLead i arm.lead = p, d.armLead i arm.lead = q at first
    obtain @⟨c₁, d₁, h₁, r⟩ := first
    cases r with
    | error e => exact .intro h₁ _
    | ok armed =>
      have others := armAll i rest h₁
      dsimp only
      generalize c₁.armAll i rest = p, d₁.armAll i rest = q at others
      obtain ⟨h₂, r⟩ := others
      cases r with
      | error e => exact .intro h₂ _
      | ok more => exact .intro h₂ _

theorem suspend (h : c.Agrees l d) (i : Instance) (s : Select) (deadline : Option Instant) :
    AgreesWith l (c.suspend i s deadline) (d.suspend i s deadline) := by
  have armed := armAll i s.arms h
  unfold Cascade.suspend
  generalize c.armAll i s.arms = p, d.armAll i s.arms = q at armed
  obtain ⟨h₁, r⟩ := armed
  cases r with
  | error e => exact .intro h₁ _
  | ok arms =>
    dsimp only
    rw [h₁.timers]
    cases deadline with
    | none => exact .intro ((h₁.setTimers _).change _ _) _
    | some t => exact .intro ((h₁.setTimers _).change _ _) _

theorem execute (h : c.Agrees l d) (i : Instance) (instr : Instr) :
    AgreesWith l (c.execute i instr) (d.execute i instr) := by
  cases instr with
  | select s =>
    simp only [Cascade.execute, h.clock]
    split
    · exact h.suspend i s none
    · split
      · exact .intro h _
      · exact h.suspend i s _
  | send event params =>
    simp only [Cascade.execute, h.scope]
    split
    · exact .intro h _
    · exact .intro ((h.produce _ _).goto _ _) _
  | start flow args isDetached =>
    simp only [Cascade.execute, h.scope]
    split
    · exact .intro h _
    · next values _ =>
      -- The instance has gone on already when the other one begins.
      have moved := h.goto i.id (i.pc + 1)
      cases hc : (c.goto i.id (i.pc + 1)).spawn flow values (some i.id) isDetached with
      | none =>
        rw [moved.spawn_eq_none hc]
        exact .intro moved _
      | some started =>
        obtain ⟨d', hd, h'⟩ := moved.exists_spawn hc
        rw [hd]
        exact .intro h' _
  | assign var value isGlobal =>
    simp only [Cascade.execute, h.scope]
    split
    · exact .intro h _
    · next v _ =>
      cases isGlobal with
      | true => exact .intro ((h.assign var v).goto _ _) _
      | false => exact .intro ((h.change i.id _).goto _ _) _
  | branch condition otherwise =>
    simp only [Cascade.execute, h.scope]
    split
    · exact .intro h _
    · exact .intro (h.goto _ _) _
  | jump target => exact .intro (h.goto _ _) _
  | abort reason => exact .intro h _
  | finish => exact .intro (h.complete _) _

theorem step (h : c.Agrees l d) (i : Instance) : AgreesWith l (c.step i) (d.step i) := by
  have executed := h.execute i ((i.flow.program.get? i.pc).getD .finish)
  unfold Cascade.step
  generalize c.execute i ((i.flow.program.get? i.pc).getD .finish) = p,
    d.execute i ((i.flow.program.get? i.pc).getD .finish) = q at executed
  obtain ⟨h₁, r⟩ := executed
  cases r with
  | ok children => exact .intro h₁ _
  | error e => exact .intro (h₁.terminate i.id e true) _

theorem firstRunning? (h : c.Agrees l d) : ∀ stack : List InstanceId,
    d.firstRunning? stack = c.firstRunning? stack
  | [] => rfl
  | id :: rest => by
    unfold Cascade.firstRunning?
    rw [h.instances, h.firstRunning? rest]

/-! ## Deliveries -/

theorem giveUp (h : c.Agrees l d) (a : Armed) : (c.giveUp a).Agrees l (d.giveUp a) := by
  cases a with
  | event => exact h
  | child id => exact h.terminate id _ false
  | call id =>
    unfold Cascade.giveUp
    rw [h.calls]
    exact h.setCalls _

theorem giveUpAll (kept : Option Nat) : ∀ (index : Nat) (arms : List Armed) {c d : Cascade},
    c.Agrees l d → (c.giveUpAll kept index arms).Agrees l (d.giveUpAll kept index arms)
  | _, [], _, _, h => h
  | index, a :: rest, c, d, h => by
    have first : Agrees l (if kept = some index then c else c.giveUp a)
        (if kept = some index then d else d.giveUp a) := by
      split
      · exact h
      · exact h.giveUp a
    exact giveUpAll kept (index + 1) rest first

theorem disarm (h : c.Agrees l d) (i : Instance) (kept : Option Nat) :
    (c.disarm i kept).Agrees l (d.disarm i kept) := by
  unfold Cascade.disarm
  split
  · exact h
  · next w _ =>
    have woken := h.change i.id fun i => { i with phase := .running }
    dsimp only
    rw [woken.timers]
    exact giveUpAll kept 0 w.arms (woken.setTimers _)

theorem candidates (h : c.Agrees l d) (e : Event) : d.candidates e = c.candidates e := by
  unfold Cascade.candidates
  rw [h.instances, h.scope]

theorem purge (h : c.Agrees l d) (e : Event) : (c.purge e).Agrees l (d.purge e) := by
  have same : d.broken e = c.broken e := by
    unfold Cascade.broken
    rw [h.candidates]
  unfold Cascade.purge
  rw [same]
  exact h.foldl (fun b h => h.terminate b.1 b.2 true) _

theorem consumers (h : c.Agrees l d) (e : Event) : d.consumers e = c.consumers e := by
  unfold Cascade.consumers Cascade.claims
  rw [h.candidates]

/-! ## Settlement -/

theorem enqueue (h : c.Agrees l d) (e : Event) : (c.enqueue e).Agrees l (d.enqueue e) := by
  obtain ⟨archive, rfl⟩ := h
  exact ⟨archive, rfl⟩

theorem settleOne (winner : Option (InstanceId × Nat)) (p : Produced)
    {state state' : Cascade × List Event} (h : AgreesWith l state state') :
    AgreesWith l (settleOne winner state p) (settleOne winner state' p) := by
  obtain ⟨⟨archive, rfl⟩, kept⟩ := h
  unfold Cascade.settleOne
  dsimp only
  split
  · exact .intro ⟨archive, rfl⟩ _
  · split
    · exact .intro ⟨archive, rfl⟩ _
    · exact .intro ⟨archive, rfl⟩ _

theorem foldl_settleOne (winner : Option (InstanceId × Nat)) (ps : List Produced)
    {state state' : Cascade × List Event} (h : AgreesWith l state state') :
    AgreesWith l (ps.foldl (Cascade.settleOne winner) state)
      (ps.foldl (Cascade.settleOne winner) state') := by
  induction ps generalizing state state' with
  | nil => exact h
  | cons p rest ih => exact ih (settleOne winner p h)

theorem settle (h : c.Agrees l d) : c.settle.Agrees l d.settle := by
  have taken : AgreesWith l (({ c with produced := #[] } : Cascade), ([] : List Event))
      ({ d with produced := #[] }, []) := by
    obtain ⟨archive, rfl⟩ := h
    exact .intro ⟨archive, rfl⟩ _
  have settled := fun winner => foldl_settleOne winner c.produced.toList taken
  unfold Cascade.settle
  rw [h.library, h.produced]
  dsimp only
  generalize heard? _ = winner
  specialize settled winner
  generalize c.produced.toList.foldl _ ({ c with produced := #[] }, []) = p,
    c.produced.toList.foldl _ ({ d with produced := #[] }, []) = q at settled
  obtain ⟨⟨archive, rfl⟩, kept⟩ := settled
  exact ⟨archive, rfl⟩

end Agrees

end Dialogue.Cascade
