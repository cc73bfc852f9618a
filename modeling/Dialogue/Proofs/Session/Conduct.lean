import Dialogue.Proofs.Calls.Life
import Dialogue.Proofs.Session.Act

/-!
# What a turn means to the surroundings

Whoever drives a session sees little of what happens in a turn. Calls are made and dropped, but
their requests stay queued, and no result is missed. Observers are told when the session is opened
and when it is closed; a turn tells them of neither, except that the first turn opens the session.
The turn also says whether the session has to be discarded.

## Main definitions

* `Notice.isOfSession`, `Session.announced` — what is told of the session itself
* `Calls.Works` — calls are made and dropped
* `Cascade.Conducts`, `Session.Serves` — what a part of a turn, and an operation, may do to the
  surroundings

## Main results

* `Cascade.conducts_run` — instances do nothing else to the surroundings
* `Session.serves_perform?` — neither does an operation that is a turn
-/

namespace Dialogue

/-- Whether a notice tells that the session itself has begun or has ended. -/
def Notice.isOfSession : Notice → Bool
  | .sessionOpened _ | .sessionClosed _ => true
  | _ => false

/-- What observers have not been told yet of the session itself. -/
def Session.announced (s : Session) : List Notice := s.notices.toList.filter Notice.isOfSession

namespace Calls

/-- The operation is one by which instances make calls and drop them. -/
def Operation.isOfInstances : Operation → Bool
  | .start _ _ _ | .cancel _ | .cancelOwned _ => true
  | _ => false

/-- Calls are made and dropped. -/
def Works (c d : Calls) : Prop := ∃ os : List Operation, (∀ o ∈ os, o.isOfInstances = true) ∧
  d = c.applyAll os

variable {c d e : Calls}

theorem Works.refl (c : Calls) : c.Works c := ⟨[], List.forall_mem_nil _, rfl⟩

theorem Works.single (c : Calls) {o : Operation} (h : o.isOfInstances = true) :
    c.Works (c.apply o) := ⟨[o], List.forall_mem_singleton.2 h, rfl⟩

theorem Works.trans (h : c.Works d) (h' : d.Works e) : c.Works e := by
  obtain ⟨os, made, rfl⟩ := h
  obtain ⟨os', made', rfl⟩ := h'
  exact ⟨os ++ os', List.forall_mem_append.2 ⟨made, made'⟩, (c.applyAll_append os os').symm⟩

end Calls

namespace Cascade

variable {c c' c'' : Cascade}

/-- Calls may be made and dropped, but nothing is told of the session itself, and it is not closed.
-/
structure Conducts (c c' : Cascade) : Prop where
  calls : c.calls.Works c'.calls
  announced : c'.toSession.announced = c.toSession.announced
  isClosed : c'.isClosed = c.isClosed

theorem Conducts.trans (h : c.Conducts c') (h' : c'.Conducts c'') : c.Conducts c'' :=
  ⟨h.calls.trans h'.calls, h'.announced.trans h.announced, h'.isClosed.trans h.isClosed⟩

/-- Nothing is told at all. -/
theorem Conducts.of_silent (calls : c.calls.Works c'.calls) (notices : c'.notices = c.notices)
    (isClosed : c'.isClosed = c.isClosed) : c.Conducts c' :=
  ⟨calls, by rw [Session.announced, notices, Session.announced], isClosed⟩

theorem Conducts.of_eq (calls : c'.calls = c.calls) (notices : c'.notices = c.notices)
    (isClosed : c'.isClosed = c.isClosed) : c.Conducts c' :=
  .of_silent (calls ▸ .refl _) notices isClosed

/-- Something is told, but not of the session itself. -/
theorem Conducts.of_push {n : Notice} (calls : c.calls.Works c'.calls)
    (notices : c'.notices = c.notices.push n) (other : n.isOfSession = false)
    (isClosed : c'.isClosed = c.isClosed) : c.Conducts c' :=
  ⟨calls, by simp [Session.announced, notices, other], isClosed⟩

theorem Conducts.refl (c : Cascade) : c.Conducts c := .of_eq rfl rfl rfl

theorem announced_notify (c : Cascade) (n : Notice) : (c.notify n).toSession.announced =
    c.toSession.announced ++ [n].filter Notice.isOfSession := by
  simp [Session.announced, notify, List.filter_append]

/-! ## Acts -/

theorem conducts_spawn {flow args parent isDetached} {id : InstanceId}
    (h : c.spawn flow args parent isDetached = some (id, c')) : c.Conducts c' := by
  obtain ⟨-, -, -, -, -, -, -, rfl⟩ := begins_of_spawn h
  exact .of_push (.refl _) rfl rfl rfl

theorem conducts_abort {i : Instance} (hi : c.instances.get? i.id = some i) (error : FlowError) :
    c.Conducts (c.abort i.id error) := by
  rw [abort_eq hi]
  exact .of_push (.single c.calls (o := .cancelOwned i.id) rfl) rfl rfl rfl

theorem Act.conducts (h : c.Act c') : c.Conducts c' := by
  cases h with
  | launch h => exact conducts_spawn h
  | start _ _ _ _ h => exact conducts_spawn h
  | conclude live => exact .of_push (.refl _) rfl rfl rfl
  | abort live => exact conducts_abort live _
  | @fail i error live =>
    let c₁ : Cascade := { c with failures := c.failures.push ⟨i.id, i.flowName, error⟩ }
    have reported : c.Conducts c₁ := .of_eq rfl rfl rfl
    exact reported.trans (conducts_abort (c := c₁) live error)
  | @call p f instr action hosts has calls params =>
    exact .of_push (.single c.calls (o := .start p action params) rfl) rfl rfl rfl
  | cancel k => exact .of_silent (.single c.calls (o := .cancel k) rfl) rfl rfl
  | _ => exact .of_eq rfl rfl rfl

theorem Acts.conducts (h : Acts c c') : c.Conducts c' := by
  induction h with
  | refl => exact .refl c
  | tail _ last ih => exact ih.trans last.conducts

/-! ## Turns -/

theorem conducts_settleOne (winner : Option (InstanceId × Nat)) (state : Cascade × List Event)
    (p : Produced) : state.1.Conducts (settleOne winner state p).1 := by
  obtain ⟨c, kept⟩ := state
  unfold settleOne
  dsimp only
  split
  · exact .of_push (.refl _) rfl rfl rfl
  · split <;> exact .of_eq rfl rfl rfl

theorem conducts_settle (c : Cascade) : c.Conducts c.settle := by
  have folded (winner : Option (InstanceId × Nat)) (ps : List Produced)
      (state : Cascade × List Event) :
      state.1.Conducts (ps.foldl (settleOne winner) state).1 := by
    induction ps generalizing state with
    | nil => exact .refl state.1
    | cons p rest ih => exact (conducts_settleOne winner state p).trans (ih _)
  exact ⟨(folded _ _ _).calls, (folded _ _ _).announced, (folded _ _ _).isClosed⟩

theorem conducts_drain : ∀ (budget : Nat) {c : Cascade}, c.toSession.Sound →
    c.Conducts (drain budget c)
  | budget, c, hs => by
    unfold drain
    cases c.queue with
    | nil => exact .refl c
    | cons e rest =>
      cases budget with
      | zero => exact .of_eq rfl rfl rfl
      | succ budget =>
        let c₁ : Cascade := { c with queue := rest }
        have popped : c.Conducts c₁ := .of_eq rfl rfl rfl
        have delivered := Acts.conducts (acts_deliver (c := c₁) hs e)
        have hs₁ := (path_deliver (c := c₁) hs e).sound hs
        have hs₂ := (Passes.aside (aside_settle (c₁.deliver e))).sound hs₁
        exact ((popped.trans delivered).trans (conducts_settle _)).trans (conducts_drain budget hs₂)

theorem conducts_run (hs : c.toSession.Sound) :
    c.Conducts (drain c.limits.cascadeSteps c.settle) :=
  (conducts_settle c).trans
    (conducts_drain _ ((Passes.aside (aside_settle c)).sound hs))

theorem conducts_foldl_enqueue {α : Type} (event : α → Event) (as : List α) (c : Cascade) :
    c.Conducts (as.foldl (fun c a => c.enqueue (event a)) c) := by
  induction as generalizing c with
  | nil => exact .refl c
  | cons a rest ih =>
    have first : c.Conducts (c.enqueue (event a)) := .of_eq rfl rfl rfl
    exact first.trans (ih _)

end Cascade

/-! ## Operations -/

namespace Operation

/-- What an operation tells of the session itself. -/
def announces : Operation → List Notice
  | .start flows => [.sessionOpened flows]
  | _ => []

/-- The calls without the one whose result an operation brings. -/
def receives (c : Calls) : Operation → Calls
  | .completeCall call _ => (c.complete call).2
  | _ => c

end Operation

namespace Session

variable {s s' : Session} {o : Operation} {t : Turn}

/-- What an operation that is a turn does to the surroundings. -/
structure Serves (s : Session) (o : Operation) (t : Turn) (s' : Session) : Prop where
  calls : (o.receives s.calls).Works s'.calls
  announced : s'.announced = s.announced ++ o.announces
  isClosed : s'.isClosed = s.isClosed
  fault : t.fault = s'.fault

/-- Until the turn of an operation begins to deliver events, the session is opened if that is the
operation. -/
theorem conducts_turn? (hs : s.Sound) {ms : List Moment} {c : Cascade}
    (h : s.turn? o = some (ms, c)) : (o.receives s.calls).Works c.calls ∧
      c.toSession.announced = s.announced ++ o.announces ∧ c.isClosed = s.isClosed := by
  -- Nothing but opening the session is announced by itself.
  have plain (s₁ : Session) {c : Cascade} (h : s₁.openCascade.Conducts c)
      (same : s₁.announced = s.announced) (isClosed : s₁.isClosed = s.isClosed) :
      s₁.calls.Works c.calls ∧ c.toSession.announced = s.announced ++ [] ∧
        c.isClosed = s.isClosed :=
    ⟨h.calls, by rw [h.announced, List.append_nil]; exact same, h.isClosed.trans isClosed⟩
  cases begins_of_turn? h with
  | @start flows c₁ launched =>
    have acted := Cascade.Acts.conducts (Cascade.acts_launchAll hs launched)
    refine ⟨acted.calls, ?_, acted.isClosed⟩
    rw [Cascade.announced_notify, acted.announced]
    rfl
  | startFlow launched => exact plain s (Cascade.acts_launch hs launched).conducts rfl rfl
  | submit e => exact plain s (.of_eq rfl rfl rfl) rfl rfl
  | completeCall call result =>
    let s₁ : Session := { s with calls := (s.calls.complete call).2 }
    refine plain s₁ ?_ rfl rfl
    unfold completing
    dsimp only
    split
    · exact .refl _
    · exact .of_push (.refl _) rfl rfl rfl
    · exact .of_eq rfl rfl rfl
  | fireTimers now =>
    let s₁ : Session := { s.tick now with timers := ((s.tick now).timers.takeDue now).2 }
    exact plain s₁ (Cascade.conducts_foldl_enqueue
      (fun t : TimerId × InstanceId => timeoutEvent t.1 t.2) _ s₁.openCascade) rfl rfl
  | abort id reason =>
    exact plain s (Cascade.acts_terminate hs (by intro _ _; trivial) true).conducts rfl rfl

theorem sound_tick (hs : s.Sound) (now : Instant) : (s.tick now).Sound := by
  have aside : s.openCascade.Aside (s.tick now).openCascade :=
    ⟨rfl, rfl, rfl, rfl, rfl, .refl _, .refl _, Instant.le_max_left ..⟩
  exact (Cascade.Passes.aside aside).sound hs

/-- Only a session that takes inputs has turns. -/
theorem checkOpen_of_perform? (h : s.perform? o = some (t, s')) : s.checkOpen = .ok () := by
  rw [perform?_eq] at h
  obtain ⟨_, began, -⟩ := Option.map_eq_some_iff.1 h
  exact checkOpen_of_turn? began

/-- A turn says whether the session has to be discarded. -/
theorem fault_of_perform? (h : s.perform? o = some (t, s')) : t.fault = s'.fault := by
  rw [perform?_eq] at h
  obtain ⟨⟨ms, c⟩, -, ran⟩ := Option.map_eq_some_iff.1 h
  obtain ⟨rfl, rfl⟩ := Prod.mk.inj ran
  rfl

/-- An operation that is a turn makes calls and drops them, and takes at most the call out whose
result it brings. The session is opened if that is the operation; it is never closed. Whether it has
to be discarded is what the turn says. -/
theorem serves_perform? (hs : s.Sound) (h : s.perform? o = some (t, s')) : s.Serves o t s' := by
  have fault := fault_of_perform? h
  rw [perform?_eq] at h
  obtain ⟨⟨ms, c⟩, began, ran⟩ := Option.map_eq_some_iff.1 h
  obtain ⟨rfl, rfl⟩ := Prod.mk.inj ran
  obtain ⟨calls, announced, isClosed⟩ := conducts_turn? hs began
  have whole := Cascade.conducts_run ((path_turn? hs began).passes_sound hs)
  exact ⟨calls.trans whole.calls, whole.announced.trans announced,
    whole.isClosed.trans isClosed, fault⟩

end Session

end Dialogue
