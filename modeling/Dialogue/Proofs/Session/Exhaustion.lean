import Dialogue.Proofs.Session.Conservation
import Dialogue.Proofs.Session.Isolation

/-!
# Activations that use up their budget

An activation that uses up its budget is reported as the failure of the instance that was activated.
This is no report at all if that instance is not live any more. But it is, as long as anything that
it has started has still to run: all of that is younger, and the steps of an instance end nobody who
is older.

## Main definitions

* `Cascade.Anchored` — the stack of an activation
* `Cascade.IsExhausted` — an activation that has used up its budget has been reported

## Main results

* `Cascade.Anchored.step` — as long as anything has to run, what was activated is live
* `Cascade.isExhausted_exhaust` — so whoever uses up a budget is reported
-/

namespace Dialogue

/-- Whether an instance has failed because its activation used up its budget. -/
def FlowError.isStepLimit : FlowError → Bool
  | .stepLimit _ => true
  | _ => false

namespace Cascade

variable {c c' : Cascade} {id root : InstanceId} {i : Instance}

/-! ## The stack of an activation -/

theorem children_of_armLead {lead : Lead} {a : Armed} (h : c.armLead i lead = (c', .ok a)) :
    ∀ k ∈ armedChildren [a], c.created < k.number := by
  cases startsLead_armLead h with
  | event | call => exact List.forall_mem_nil _
  | child _ spawned =>
    obtain ⟨-, -, rfl, -⟩ := get?_spawn spawned
    exact List.forall_mem_singleton.2 (Nat.lt_succ_self _)

theorem children_of_armAll {arms : List Arm} {armed : List Armed} (hs : c.toSession.Sound)
    (hi : (c.instances.get? i.id).isSome) (h : c.armAll i arms = (c', .ok armed)) :
    ∀ k ∈ armedChildren armed, c.created < k.number := by
  induction arms generalizing c armed with
  | nil =>
    cases startsLeads_armAll h with
    | nil => exact List.forall_mem_nil _
  | cons arm rest ih =>
    cases startsLeads_armAll h with
    | @cons _ _ _ a _ more first others =>
      obtain ⟨changes, expands, -⟩ := armLead_ok hs hi first
      have fresh := ih (Changes.sound changes hs) (expands.isSome hi) others
      have grows := (Changes.later changes).created
      have split : armedChildren (a :: more) = armedChildren [a] ++ armedChildren more :=
        List.filterMap_append (l := [a])
      rw [split]
      exact List.forall_mem_append.2 ⟨children_of_armLead first,
        fun k hk => Nat.lt_of_le_of_lt grows (fresh k hk)⟩

/-- What has to run before an instance goes on is new, and the instance stays live for that. -/
theorem children_of_execute {instr : Instr} {children : List InstanceId}
    (hs : c.toSession.Sound) (hi : c.instances.get? i.id = some i)
    (h : c.execute i instr = (c', .ok children)) (some_child : children ≠ []) :
    (∀ k ∈ children, c.created < k.number) ∧ (c'.instances.get? i.id).isSome := by
  have live : (c.instances.get? i.id).isSome := by rw [hi]; rfl
  cases carriesOut_execute h with
  | @suspend _ deadline c₁ arms _ armed =>
    obtain ⟨-, expands, -⟩ := armAll_ok hs live armed
    obtain ⟨j, hj⟩ := Option.isSome_iff_exists.1 (expands.isSome live)
    obtain ⟨timer, timers, eq⟩ := exists_suspended_eq c₁ i arms deadline
    refine ⟨children_of_armAll hs live armed, ?_⟩
    simp [eq, change, Table.get?_modify, hj]
  | start _ spawned =>
    obtain ⟨compiled, depth, rfl, hget, -⟩ := get?_spawn spawned
    refine ⟨List.forall_mem_singleton.2 (Nat.lt_succ_self _), ?_⟩
    rw [hget, goto, change_eq hi]
    split <;> simp
  | send | share | bind | branch | jump | finish => exact absurd rfl some_child

theorem children_of_step {k : InstanceId} (hs : c.toSession.Sound)
    (hi : c.instances.get? i.id = some i) (hk : k ∈ (c.step i).2) :
    (∀ k ∈ (c.step i).2, c.created < k.number) ∧ ((c.step i).1.instances.get? i.id).isSome := by
  unfold step at hk ⊢
  split at hk
  · next executed => exact children_of_execute hs hi executed (List.ne_nil_of_mem hk)
  · cases hk

/-- A stack with an instance at the bottom, such that all that stands above it is younger. -/
inductive Rooted (root : InstanceId) : List InstanceId → Prop
  | bottom : Rooted root [root]
  | push {k stack} (younger : root.number < k.number) (h : Rooted root stack) :
    Rooted root (k :: stack)

theorem Rooted.append {ks stack : List InstanceId} (h : Rooted root stack)
    (younger : ∀ k ∈ ks, root.number < k.number) : Rooted root (ks ++ stack) := by
  induction ks with
  | nil => exact h
  | cons k rest ih =>
    obtain ⟨first, others⟩ := List.forall_mem_cons.1 younger
    exact .push first (ih others)

theorem Rooted.of_suffix {stack rest : List InstanceId} (h : Rooted root stack)
    (sub : id :: rest <:+ stack) : Rooted root (id :: rest) := by
  induction h with
  | bottom =>
    rcases List.suffix_cons_iff.1 sub with same | sub
    · exact same ▸ .bottom
    · cases List.suffix_nil.1 sub
  | push younger h ih =>
    rcases List.suffix_cons_iff.1 sub with same | sub
    · exact same ▸ .push younger h
    · exact ih sub

/-- The first running instance of a stack stands on the rest of it. -/
theorem suffix_of_firstRunning? (hs : c.toSession.Sound) {rest : List InstanceId} :
    ∀ {stack : List InstanceId}, c.firstRunning? stack = some (i, rest) →
      c.instances.get? i.id = some i ∧ i.phase = .running ∧ i.id :: rest <:+ stack
  | [], h => by cases h
  | k :: stack, h => by
    have later (h : c.firstRunning? stack = some (i, rest)) : c.instances.get? i.id = some i ∧
        i.phase = .running ∧ i.id :: rest <:+ k :: stack := by
      obtain ⟨hi, hr, sub⟩ := suffix_of_firstRunning? hs h
      exact ⟨hi, hr, sub.trans (List.suffix_cons k stack)⟩
    unfold firstRunning? at h
    split at h
    · next j hj =>
      split at h
      · next running =>
        cases h
        obtain rfl := hs.id_eq hj
        exact ⟨hj, by simpa [Instance.isRunning] using running, List.suffix_refl _⟩
      · exact later h
    · exact later h

/-- A stack as it stands in an activation: as long as anything stands above what was activated, that
is live. -/
structure Anchored (root : InstanceId) (stack : List InstanceId) (c : Cascade) : Prop where
  rooted : Rooted root stack
  live : stack = [root] ∨ (c.instances.get? root).isSome

theorem Anchored.of_firstRunning? {stack rest : List InstanceId} (h : Anchored root stack c)
    (hi : (c.instances.get? id).isSome) (sub : id :: rest <:+ stack) :
    Rooted root (id :: rest) ∧ (c.instances.get? root).isSome := by
  have rooted := h.rooted.of_suffix sub
  refine ⟨rooted, h.live.elim (fun single => ?_) fun live => live⟩
  -- Nothing stands above, so it is the one that runs.
  rw [single] at sub
  rcases List.suffix_cons_iff.1 sub with same | sub
  · obtain ⟨rfl, -⟩ := List.cons.inj same
    exact hi
  · cases List.suffix_nil.1 sub

/-- A step leaves those alone that are older than the instance that makes it. -/
theorem Anchored.step {rest : List InstanceId} (hs : c.toSession.Sound)
    (hk : c.toSession.Kinship) (hi : c.instances.get? i.id = some i) (hr : i.phase = .running)
    (rooted : Rooted root (i.id :: rest)) (live : (c.instances.get? root).isSome) :
    Anchored root ((c.step i).2 ++ i.id :: rest) (c.step i).1 := by
  obtain ⟨r, hroot⟩ := Option.isSome_iff_exists.1 live
  have begun := (hs.instances root r hroot).begun
  refine ⟨rooted.append fun k hk => Nat.lt_of_le_of_lt begun ((children_of_step hs hi hk).1 k hk),
    ?_⟩
  cases rooted with
  | bottom =>
    -- Only if something has to run before it goes on, it is needed any more.
    cases children : (c.step i).2 with
    | nil => exact .inl rfl
    | cons k ks =>
      have hk : k ∈ (c.step i).2 := by
        rw [children]
        exact List.mem_cons_self
      exact .inr (children_of_step hs hi hk).2
  | push younger =>
    have guards : Guards (fun k => k.number ≤ root.number) c := by
      refine ⟨hs, hk, fun k older => Nat.le_trans older begun, fun k j p older hj parent _ => ?_⟩
      exact Nat.le_trans (Nat.le_of_lt (hk.descends k j p hj parent).1) older
    obtain ⟨r', hroot', -⟩ :=
      spares_step guards hi hr (Nat.not_le_of_lt younger) root r (Nat.le_refl _) hroot
    refine .inr ?_
    rw [hroot']
    rfl

/-! ## Activations that use up their budget -/

/-- An activation of this turn has used up its budget, and that has been reported. -/
def IsExhausted (c : Cascade) : Prop := ∃ f ∈ c.failures, f.error.isStepLimit = true

theorem IsExhausted.acts (h : c.IsExhausted) (acts : Acts c c') : c'.IsExhausted := by
  obtain ⟨f, hf, limit⟩ := h
  obtain ⟨ns, fs, adds⟩ := acts.exists_adds
  refine ⟨f, ?_, limit⟩
  rw [← Array.mem_toList_iff, adds.failures]
  exact List.mem_append_left _ (Array.mem_toList_iff.2 hf)

theorem failures_abort (c : Cascade) (id : InstanceId) (error : FlowError) :
    (c.abort id error).failures = c.failures := by
  unfold abort
  split <;> rfl

theorem failures_foldl_abort (error : InstanceId → FlowError) (ids : List InstanceId)
    (c : Cascade) : (ids.foldl (fun c id => c.abort id (error id)) c).failures = c.failures := by
  induction ids generalizing c with
  | nil => rfl
  | cons id rest ih => exact (ih _).trans (failures_abort c id (error id))

theorem isExhausted_exhaust (hs : c.toSession.Sound) (live : (c.instances.get? root).isSome)
    (stack : List InstanceId) : (c.exhaust root stack).IsExhausted := by
  let error := FlowError.stepLimit c.limits.activationSteps
  have reported : (c.terminate root error true).IsExhausted := by
    obtain ⟨i, hi⟩ := Option.isSome_iff_exists.1 live
    refine ⟨⟨root, i.flowName, error⟩, ?_, rfl⟩
    simp only [terminate, hi]
    rw [failures_foldl_abort (fun id => if id = root then error else .parentTerminated i.label)]
    exact Array.mem_push_self
  have hs₁ := Changes.sound (changes_terminate hs root error true) hs
  rw [exhaust_eq]
  exact reported.acts (acts_foldl_endRunning hs₁ _ stack)

end Cascade

end Dialogue
