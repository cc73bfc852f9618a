import Dialogue.Proofs.Session.Downfall
import Dialogue.Proofs.Session.Validity

/-!
# The activations of a turn

All that instances do in a turn they do in activations, one after the other: a flow is launched, or
an instance goes on after its wait has come to its end. When an activation begins, the instance that
is activated is live, and nobody else has anything to do.

## Main definitions

* `Cascade.Activates` — what holds when an activation begins
* `Cascade.Pauses` — what holds between activations
* `Session.activations` — the activations of a turn

## Main results

* `Session.steps_eq` — the steps of a turn are those of its activations
* `Session.activates_of_mem` — whenever an activation begins, only one instance runs
-/

namespace Dialogue

namespace Cascade

/-- An instance is about to run, and nobody else runs. -/
structure Activates (c : Cascade) (id : InstanceId) : Prop where
  coherent : c.toSession.Coherent
  calm : Calm [id] c
  runs : ∃ i, c.instances.get? id = some i ∧ i.phase = .running

/-- The activations when waits are resolved, one after the other. -/
def resumeAllActivations : List (InstanceId × Resolution) → Cascade → List (Cascade × InstanceId)
  | [], _ => []
  | r :: rest, c =>
    (c.resumption? r.1 r.2).toList.map (·, r.1) ++ resumeAllActivations rest (c.resume r.1 r.2)

/-- The activations until the queue is empty. -/
def drainActivations : Nat → Cascade → List (Cascade × InstanceId)
  | budget, c =>
    match c.queue with
    | [] => []
    | e :: rest =>
      match budget with
      | 0 => []
      | budget + 1 =>
        let c₁ : Cascade := { c with queue := rest }
        resumeAllActivations (c₁.consumers e) (c₁.purge e) ++
          drainActivations budget (c₁.deliver e).settle

/-- The activations when flows are launched, one after the other. -/
def launchAllActivations : List (String × Params) → Cascade → List (Cascade × InstanceId)
  | [], _ => []
  | (flow, args) :: rest, c =>
    match c.spawn flow args none false with
    | none => []
    | some (id, c) => (c, id) :: launchAllActivations rest (c.activate id)

end Cascade

/-- The activations in the turn of an operation: in which state, and of whom. -/
def Session.activations (s : Session) (o : Operation) : List (Cascade × InstanceId) :=
  match s.turn? o with
  | none => []
  | some (_, c) =>
    (match o with
      | .start flows => Cascade.launchAllActivations (flows.map (·, ∅)) s.openCascade
      | .startFlow flow args => Cascade.launchAllActivations [(flow, args)] s.openCascade
      | _ => []) ++ Cascade.drainActivations c.limits.cascadeSteps c.settle

namespace Cascade

variable {c c' d : Cascade} {id : InstanceId} {i : Instance} {r : Resolution}

/-! ## The steps of activations -/

/-- The steps of activations, one after the other. -/
def stepsOf (as : List (Cascade × InstanceId)) : List (Cascade × Instance) :=
  as.flatMap fun a => a.1.activateSteps a.2

theorem resumeAllSteps_eq (rs : List (InstanceId × Resolution)) (c : Cascade) :
    resumeAllSteps rs c = stepsOf (resumeAllActivations rs c) := by
  induction rs generalizing c with
  | nil => rfl
  | cons r rest ih =>
    rw [resumeAllSteps, resumeAllActivations, stepsOf, List.flatMap_append, ih, stepsOf]
    congr 1
    rw [resumeSteps_eq]
    cases c.resumption? r.1 r.2 with
    | none => rfl
    | some d => simp

theorem drainSteps_eq (budget : Nat) (c : Cascade) :
    drainSteps budget c = stepsOf (drainActivations budget c) := by
  induction budget generalizing c with
  | zero =>
    unfold drainSteps drainActivations
    cases c.queue <;> rfl
  | succ budget ih =>
    unfold drainSteps drainActivations
    cases c.queue with
    | nil => rfl
    | cons e rest =>
      rw [stepsOf, List.flatMap_append]
      exact congrArg₂ (· ++ ·) (resumeAllSteps_eq ..) (ih _)

theorem launchSteps_eq (c : Cascade) (flow : String) (args : Params) :
    c.launchSteps flow args = stepsOf (launchAllActivations [(flow, args)] c) := by
  unfold launchSteps launchAllActivations
  cases c.spawn flow args none false with
  | none => rfl
  | some p => simp [stepsOf, launchAllActivations]

theorem launchAllSteps_eq (flows : List String) (c : Cascade) :
    launchAllSteps flows c = stepsOf (launchAllActivations (flows.map (·, ∅)) c) := by
  induction flows generalizing c with
  | nil => rfl
  | cons flow rest ih =>
    rw [launchAllSteps, List.map_cons, launchAllActivations, launchSteps, launch]
    cases c.spawn flow ∅ none false with
    | none => rfl
    | some p =>
      rw [stepsOf, List.flatMap_cons]
      exact congrArg (_ ++ ·) (ih _)

/-! ## When an activation begins -/

/-- Nobody runs. -/
structure Pauses (c : Cascade) : Prop where
  coherent : c.toSession.Coherent
  calm : Calm [] c

theorem Pauses.passes {ms : List Moment} (h : c.Pauses) (path : Path Passes c ms c')
    (calm : Calm [] c') : c'.Pauses :=
  ⟨coherent_of_moves path.moves h.coherent, calm⟩

theorem Pauses.path {ms : List Moment} (h : c.Pauses) (path : Path Change c ms c')
    (calm : Calm [] c') : c'.Pauses :=
  h.passes (path.mono fun _ _ => .change) calm

theorem Pauses.aside (h : c.Pauses) (aside : c.Aside c') : c'.Pauses :=
  h.passes (.single (.aside aside)) (aside.calm h.calm)

/-- After an activation nobody runs. -/
theorem Activates.activate (h : c.Activates id) : (c.activate id).Pauses := by
  have path := (path_activate h.coherent.sound id).mono fun _ _ => Passes.change
  exact ⟨coherent_of_moves path.moves h.coherent,
    calm_activate h.coherent.sound h.coherent.linked h.calm⟩

theorem Pauses.resume (h : c.Pauses) (id : InstanceId) (r : Resolution) : (c.resume id r).Pauses :=
  h.path (path_resume h.coherent.sound id r)
    (calm_resume h.coherent.sound h.coherent.linked h.calm id r)

theorem Pauses.purge (h : c.Pauses) (e : Event) : (c.purge e).Pauses :=
  h.path (.of_changes (changes_purge h.coherent.sound e))
    (h.calm.survivors (survivors_foldl_terminate h.coherent.sound _))

theorem Pauses.deliver (h : c.Pauses) (e : Event) : (c.deliver e).Pauses :=
  h.path (path_deliver h.coherent.sound e)
    (calm_deliver h.coherent.sound h.coherent.linked h.calm e)

/-- A flow that is launched is the only one that runs. -/
theorem Pauses.spawn {flow : String} {args : Params} (h : c.Pauses)
    (spawned : c.spawn flow args none false = some (id, c')) : c'.Activates id := by
  have begun : c.Change c' := .begin spawned nofun
  obtain ⟨_, _, -, hget, -⟩ := get?_spawn spawned
  exact ⟨coherent_of_moves (.single (.passes (.change begun))) h.coherent, h.calm.spawn spawned,
    _, (hget id).trans (if_pos rfl), rfl⟩

/-- An instance that goes on after its wait is live, and the only one that runs. -/
theorem Pauses.activates_of_resumption? (h : c.Pauses) (hr : c.resumption? id r = some d) :
    d.Activates id := by
  obtain ⟨i, w, kept, pc, bindings, hi, hw, rfl, -⟩ := exists_of_resumption? hr
  obtain rfl := h.coherent.sound.id_eq hi
  -- It goes on in two steps: its wait is given up, and then it is moved to where it goes on.
  have disarmed := disarms h.coherent.sound hi hw kept
  have sound := disarmed.sound h.coherent.sound
  have moved := goesOn_relocate sound disarmed.awake pc bindings
  obtain ⟨moves, live⟩ := moves_awaken h.coherent hi hw kept fun _ ha => ha
  rw [← disarm_eq hi hw] at moves live
  refine ⟨coherent_of_moves (moves.trans (moves_of_changes moved.changes)) h.coherent,
    moved.calm [i.id] (disarmed.calm h.calm), ?_⟩
  obtain ⟨j, hj⟩ := Option.isSome_iff_exists.1 live
  exact ⟨_, by rw [relocate, change_eq hj, Table.get?_insert_self], rfl⟩

theorem activates_of_mem_resumeAll : ∀ {rs : List (InstanceId × Resolution)} {c : Cascade},
    c.Pauses → ∀ a ∈ resumeAllActivations rs c, a.1.Activates a.2
  | [], _, _ => List.forall_mem_nil _
  | r :: rest, c, h => by
    rw [resumeAllActivations]
    refine List.forall_mem_append.2 ⟨fun a ha => ?_, activates_of_mem_resumeAll (h.resume r.1 r.2)⟩
    obtain ⟨d, hd, rfl⟩ := List.mem_map.1 ha
    exact h.activates_of_resumption? (Option.mem_toList.1 hd)

theorem activates_of_mem_drain : ∀ {budget : Nat} {c : Cascade}, c.Pauses →
    ∀ a ∈ drainActivations budget c, a.1.Activates a.2
  | budget, c, h => by
    unfold drainActivations
    cases c.queue with
    | nil => exact List.forall_mem_nil _
    | cons e rest =>
      cases budget with
      | zero => exact List.forall_mem_nil _
      | succ budget =>
        have popped := h.aside (aside_pop c rest)
        exact List.forall_mem_append.2 ⟨activates_of_mem_resumeAll (popped.purge e),
          activates_of_mem_drain ((popped.deliver e).aside (aside_settle _))⟩

theorem activates_of_mem_launchAll : ∀ {flows : List (String × Params)} {c : Cascade}, c.Pauses →
    ∀ a ∈ launchAllActivations flows c, a.1.Activates a.2
  | [], _, _ => List.forall_mem_nil _
  | (flow, args) :: rest, c, h => by
    unfold launchAllActivations
    split
    · exact List.forall_mem_nil _
    · next id c' spawned =>
      have first := h.spawn spawned
      exact List.forall_mem_cons.2 ⟨first, activates_of_mem_launchAll first.activate⟩

end Cascade

namespace Session

variable {s : Session}

/-- The steps of a turn are those of its activations. -/
theorem steps_eq (s : Session) (o : Operation) :
    s.steps o = Cascade.stepsOf (s.activations o) := by
  unfold steps activations
  cases s.turn? o with
  | none => rfl
  | some t =>
    obtain ⟨ms, c⟩ := t
    dsimp only
    rw [Cascade.stepsOf, List.flatMap_append, ← Cascade.stepsOf, ← Cascade.stepsOf,
      ← Cascade.drainSteps_eq]
    congr 1
    cases o with
    | start flows => exact Cascade.launchAllSteps_eq ..
    | startFlow flow args => exact Cascade.launchSteps_eq ..
    | _ => rfl

theorem pauses_applyAll (name : String) (library : FlowLibrary) (limits : Limits)
    (context : Params) (os : List Operation) :
    ((new name library limits context).applyAll os).openCascade.Pauses where
  coherent := Cascade.coherent_of_moves
    (path_historyOf (sound_new name library limits context) os).moves
    (coherent_new name library limits context)
  calm := (rests_applyAll (rests_new name library limits context) os).calm

/-- Whenever an activation begins in a run, the instance is live, and nobody else runs. -/
theorem activates_of_mem (h : s.openCascade.Pauses) {o : Operation} {a : Cascade × InstanceId}
    (ha : a ∈ s.activations o) : a.1.Activates a.2 := by
  unfold activations at ha
  cases ht : s.turn? o with
  | none =>
    rw [ht] at ha
    cases ha
  | some t =>
    obtain ⟨ms, c⟩ := t
    rw [ht] at ha
    have rests : s.Rests := ⟨h.coherent.sound, h.coherent.linked, h.calm⟩
    have opened := h.passes (path_turn? h.coherent.sound ht) (calm_turn? rests ht)
    rcases List.mem_append.1 ha with launched | drained
    · cases o with
      | start => exact Cascade.activates_of_mem_launchAll h a launched
      | startFlow => exact Cascade.activates_of_mem_launchAll h a launched
      | _ => cases launched
    · exact Cascade.activates_of_mem_drain (opened.aside (Cascade.aside_settle c)) a drained

end Session

end Dialogue
