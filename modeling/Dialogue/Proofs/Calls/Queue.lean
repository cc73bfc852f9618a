import Dialogue.Proofs.Calls.Life

/-!
# Requests in the queue

The request of a call is queued when the call is started, and it leaves the queue when it is taken
with the others. Until then somebody is meant to wait for the result: when a call is cancelled its
request is dropped, and when all calls are forgotten the queue is emptied. But a result that comes
in ends its call and leaves the request where it is. Such a request has been overtaken: nobody waits
for it any more, nothing but its own identifier cancels it, and it is still handed out.

## Main definitions

* `Calls.IsAwaited`, `Calls.QueueAgrees` — every request in the queue is for a call of use
* `Calls.Unqueues` — an operation takes the request of a call out of the queue
* `Calls.Unanswered`, `Calls.Overtaken` — what has been done since the call of a request was started

## Main results

* `Calls.mem_queue_apply` — which requests an operation leaves in the queue
* `Calls.unanswered_or_overtaken` — there are no other requests in the queue
* `Calls.queue_agrees_iff_not_overtaken` — the queue agrees with the calls until one is overtaken
* `Calls.request_overtaken` — a request that is handed out after the result
-/

namespace Dialogue.Calls

variable {c : Calls} {id : CallId} {owner : InstanceId} {action : String} {o : Operation}
  {os : List Operation} {r : ActionRequest}

/-- Somebody waits for the result of a call: it is pending and has not been cancelled. -/
def IsAwaited (c : Calls) (id : CallId) : Prop :=
  ∃ call, c.pending.get? id = some call ∧ call.isCancelled = false

/-- Every request in the queue is for a call whose result somebody waits for. -/
def QueueAgrees (c : Calls) : Prop := ∀ r ∈ c.queue, c.IsAwaited r.call

/-- The operation leaves a call alone whose request is queued: neither is the request taken, nor
does the call end, nor is it cancelled, by itself or with the others of its owner. -/
def Operation.Spares (id : CallId) (owner : InstanceId) (o : Operation) : Prop :=
  o ≠ .takeRequests ∧ o.settles id = false ∧ o.cancels id owner = false

/-- The operation leaves a request in the queue whose call has ended: requests are not taken or
forgotten, and the call is not cancelled by itself. -/
def Operation.Overlooks (id : CallId) (o : Operation) : Prop :=
  o ≠ .takeRequests ∧ o ≠ .clear ∧ o ≠ .cancel id

/-- The call of a request was started in a run, and has been left alone since. -/
def Unanswered (os : List Operation) (owner : InstanceId) (r : ActionRequest) : Prop :=
  ∃ pre post, os = pre ++ .start owner r.action r.params :: post ∧
    ((none.applyAll pre).start owner r.action r.params).1 = r.call ∧
    ∀ o ∈ post, o.Spares r.call owner

/-- The result of a call came in while its request was queued, and nothing has taken the request out
of the queue since. -/
def Overtaken (os : List Operation) (r : ActionRequest) : Prop :=
  ∃ owner pre post, os = pre ++ .complete r.call :: post ∧ Unanswered pre owner r ∧
    ∀ o ∈ post, o.Overlooks r.call

/-! ## What leaves the queue -/

/-- The operation takes the request of a call out of the queue: all requests are taken or forgotten,
or the call is cancelled. -/
def Unqueues (c : Calls) (id : CallId) : Operation → Prop
  | .takeRequests | .clear => True
  | .cancel k => k = id
  | .cancelOwned owner => id ∈ c.owned owner
  | .start .. | .complete _ => False

theorem mem_queue_cancel : r ∈ (c.cancel id).queue ↔ r ∈ c.queue ∧ r.call ≠ id := by
  unfold cancel
  split
  · simp
  · next absent =>
    refine ⟨fun hr => ⟨hr, fun same => absent ?_⟩, And.left⟩
    exact List.any_eq_true.2 ⟨r, hr, decide_eq_true same⟩

theorem mem_queue_foldl_cancel (ids : List CallId) (c : Calls) :
    r ∈ (ids.foldl cancel c).queue ↔ r ∈ c.queue ∧ r.call ∉ ids := by
  induction ids generalizing c with
  | nil => simp
  | cons k rest ih => rw [List.foldl_cons, ih, mem_queue_cancel, List.mem_cons, not_or, and_assoc]

theorem queue_complete (c : Calls) (id : CallId) : (c.complete id).2.queue = c.queue := by
  unfold complete
  split <;> rfl

/-- A request whose call has been started is in the queue after an operation if it was there before
and the operation does not take it out. -/
theorem mem_queue_apply (started : r.call.number ≤ c.issued) (o : Operation) :
    r ∈ (c.apply o).queue ↔ r ∈ c.queue ∧ ¬ c.Unqueues r.call o := by
  cases o with
  | start owner action params =>
    have older : r ≠ ⟨⟨c.issued + 1⟩, action, params⟩ := by
      rintro rfl
      exact Nat.not_succ_le_self _ started
    simp [apply, start, Unqueues, older]
  | takeRequests => simp [apply, takeRequests, Unqueues]
  | complete k => simp [apply, queue_complete, Unqueues]
  | cancel k => simp only [apply, mem_queue_cancel, Unqueues, ne_comm, ne_eq]
  | cancelOwned owner => exact mem_queue_foldl_cancel (c.owned owner) c
  | clear => simp [apply, clear, Unqueues]

/-- What each of some operations keeps is kept by all of them together. -/
theorem kept_applyAll {P : Calls → Prop} {Q : Operation → Prop}
    (step : ∀ {c o}, P c → Q o → P (c.apply o)) (h : P c) (all : ∀ o ∈ os, Q o) :
    P (c.applyAll os) := by
  induction os generalizing c with
  | nil => exact h
  | cons o rest ih =>
    obtain ⟨first, others⟩ := List.forall_mem_cons.1 all
    exact ih (step h first) others

/-! ## Requests whose call is awaited -/

theorem isAwaited_iff : c.IsAwaited id ↔ ∃ s, c.stage? id = some s ∧ s.isCancelled = false := by
  simp [IsAwaited, stage?]

/-- The request is queued, and its call is in the stage in which it was when it was started. -/
structure IsFresh (c : Calls) (owner : InstanceId) (r : ActionRequest) : Prop where
  queued : r ∈ c.queue
  started : r.call.number ≤ c.issued
  stage : c.stage? r.call = some (.fresh owner r.action)

/-- The request is queued, but its call has ended. -/
structure IsLeft (c : Calls) (r : ActionRequest) : Prop where
  queued : r ∈ c.queue
  started : r.call.number ≤ c.issued
  ended : c.stage? r.call = .none

theorem IsFresh.isAwaited (h : c.IsFresh owner r) : c.IsAwaited r.call :=
  isAwaited_iff.2 ⟨_, h.stage, rfl⟩

theorem IsLeft.not_isAwaited (h : c.IsLeft r) : ¬ c.IsAwaited r.call := by
  rw [isAwaited_iff, h.ended]
  rintro ⟨s, hs, -⟩
  cases hs

theorem isFresh_start (c : Calls) (owner : InstanceId) (r : ActionRequest)
    (h : (c.start owner r.action r.params).1 = r.call) :
    (c.start owner r.action r.params).2.IsFresh owner r where
  queued := by
    have queued : (⟨r.call, r.action, r.params⟩ : ActionRequest) ∈
        (c.start owner r.action r.params).2.queue :=
      h ▸ List.mem_append_right _ (List.mem_singleton_self _)
    exact queued
  started := h ▸ Nat.le_refl _
  stage := (stage?_start ..).trans (if_pos h.symm)

/-- A call that is left alone stays as it is. -/
theorem IsFresh.apply (h : c.IsFresh owner r) (spares : o.Spares r.call owner) :
    (c.apply o).IsFresh owner r := by
  have kept : ¬ c.Unqueues r.call o := by
    obtain ⟨notTaken, settles, cancels⟩ := spares
    cases o with
    -- The call has another owner, since this one's calls are cancelled.
    | cancelOwned k =>
      intro owned
      obtain ⟨s, hs, same, -⟩ := mem_owned_iff.1 owned
      rw [h.stage] at hs
      obtain rfl := Option.some.inj hs
      simp [Operation.cancels, ← same, Stage.fresh] at cancels
    | _ => simp_all [Unqueues, Operation.settles, Operation.cancels]
  refine ⟨(mem_queue_apply h.started o).2 ⟨h.queued, kept⟩,
    Nat.le_trans h.started (c.later_apply o).issued, ?_⟩
  obtain ⟨notTaken, settles, cancels⟩ := spares
  rw [stage?_apply h.started, h.stage, Option.bind_some]
  cases o <;>
    simp_all [Stage.next, Stage.fresh, Operation.settles, Operation.cancels, eq_comm]

theorem IsFresh.applyAll (h : c.IsFresh owner r) (spare : ∀ o ∈ os, o.Spares r.call owner) :
    (c.applyAll os).IsFresh owner r :=
  kept_applyAll (P := fun c => c.IsFresh owner r) IsFresh.apply h spare

/-- If the request stays in the queue, either the call is left alone or its result comes in. -/
theorem IsFresh.spares_or_complete (h : c.IsFresh owner r) (kept : r ∈ (c.apply o).queue) :
    o.Spares r.call owner ∨ o = .complete r.call := by
  have stays := ((mem_queue_apply h.started o).1 kept).2
  cases o with
  | cancelOwned k =>
    refine .inl ⟨nofun, rfl, decide_eq_false ?_⟩
    rintro rfl
    exact stays (mem_owned_iff.2 ⟨_, h.stage, rfl, rfl⟩)
  | complete k =>
    by_cases same : k = r.call
    · exact .inr (same ▸ rfl)
    · exact .inl ⟨nofun, decide_eq_false same, rfl⟩
  | cancel k => exact .inl ⟨nofun, rfl, decide_eq_false stays⟩
  | start => exact .inl ⟨nofun, rfl, rfl⟩
  | takeRequests | clear => exact absurd trivial stays

/-! ## Requests that have been overtaken -/

/-- A result leaves the request of its call in the queue. -/
theorem IsFresh.isLeft (h : c.IsFresh owner r) : (c.apply (.complete r.call)).IsLeft r where
  queued := (mem_queue_apply h.started _).2 ⟨h.queued, id⟩
  started := Nat.le_trans h.started (c.later_apply _).issued
  ended := (stage?_complete ..).trans (if_pos rfl)

/-- The request stays in the queue exactly if it is overlooked. -/
theorem IsLeft.mem_queue_apply_iff (h : c.IsLeft r) :
    r ∈ (c.apply o).queue ↔ o.Overlooks r.call := by
  rw [mem_queue_apply h.started, and_iff_right h.queued]
  cases o with
  -- The calls of an owner are looked up among the pending ones, and this one is gone.
  | cancelOwned k =>
    refine iff_of_true (fun owned => ?_) ⟨nofun, nofun, nofun⟩
    obtain ⟨s, hs, -⟩ := mem_owned_iff.1 owned
    rw [h.ended] at hs
    cases hs
  | _ => simp [Unqueues, Operation.Overlooks]

theorem IsLeft.apply (h : c.IsLeft r) (overlooked : o.Overlooks r.call) :
    (c.apply o).IsLeft r where
  queued := h.mem_queue_apply_iff.2 overlooked
  started := Nat.le_trans h.started (c.later_apply o).issued
  ended := by rw [stage?_apply h.started, h.ended]; rfl

theorem IsLeft.applyAll (h : c.IsLeft r) (overlooked : ∀ o ∈ os, o.Overlooks r.call) :
    (c.applyAll os).IsLeft r :=
  kept_applyAll (P := fun c => c.IsLeft r) IsLeft.apply h overlooked

/-! ## The queue after a run -/

theorem Unanswered.isFresh (h : Unanswered os owner r) : (none.applyAll os).IsFresh owner r := by
  obtain ⟨pre, post, rfl, started, spared⟩ := h
  rw [applyAll_append]
  exact (isFresh_start _ owner r started).applyAll spared

theorem Unanswered.concat (h : Unanswered os owner r) (spares : o.Spares r.call owner) :
    Unanswered (os ++ [o]) owner r := by
  obtain ⟨pre, post, rfl, started, spared⟩ := h
  exact ⟨pre, post ++ [o], by simp, started,
    List.forall_mem_append.2 ⟨spared, List.forall_mem_singleton.2 spares⟩⟩

theorem Overtaken.isLeft (h : Overtaken os r) : (none.applyAll os).IsLeft r := by
  obtain ⟨owner, pre, post, rfl, unanswered, overlooked⟩ := h
  rw [applyAll_append]
  exact unanswered.isFresh.isLeft.applyAll overlooked

theorem Overtaken.concat (h : Overtaken os r) (overlooks : o.Overlooks r.call) :
    Overtaken (os ++ [o]) r := by
  obtain ⟨owner, pre, post, rfl, unanswered, overlooked⟩ := h
  exact ⟨owner, pre, post ++ [o], by simp, unanswered,
    List.forall_mem_append.2 ⟨overlooked, List.forall_mem_singleton.2 overlooks⟩⟩

/-- A request that is in the queue is there since its call was started. Either the call has been
left alone since, or its result has come in. -/
theorem unanswered_or_overtaken (h : r ∈ (none.applyAll os).queue) :
    (∃ owner, Unanswered os owner r) ∨ Overtaken os r := by
  -- What the last operation does depends on what has been done before, so the run grows at its end.
  induction os using List.reverseRecOn with
  | nil => cases h
  | append_singleton os o ih =>
    rw [applyAll_append] at h
    by_cases before : r ∈ (none.applyAll os).queue
    · rcases ih before with ⟨owner, unanswered⟩ | overtaken
      · rcases unanswered.isFresh.spares_or_complete h with spares | rfl
        · exact .inl ⟨owner, unanswered.concat spares⟩
        · exact .inr ⟨owner, os, [], rfl, unanswered, nofun⟩
      · exact .inr (overtaken.concat (overtaken.isLeft.mem_queue_apply_iff.1 h))
    -- What is in the queue only now has been started just now.
    · by_cases start : ∃ owner action params, o = .start owner action params
      · obtain ⟨owner, action, params, rfl⟩ := start
        obtain rfl := List.mem_singleton.1 ((List.mem_append.1 h).resolve_left before)
        exact .inl ⟨owner, os, [], rfl, rfl, nofun⟩
      · have loses := (none.applyAll os).loses_apply
          fun owner action params ho => start ⟨owner, action, params, ho⟩
        exact absurd (loses.queue r h) before

/-- The requests in the queue, which are those that are taken next, are for calls whose result
somebody waits for, unless the result has overtaken the request. Somebody waits for the result
exactly if the call has been left alone since it was started. -/
theorem queue_agrees_iff_not_overtaken (os : List Operation) :
    let c := none.applyAll os
    (c.QueueAgrees ↔ ∀ r, ¬ Overtaken os r) ∧
      ∀ r, (r ∈ c.queue ∧ c.IsAwaited r.call ↔ ∃ owner, Unanswered os owner r) ∧
        (r ∈ c.queue ∧ ¬ c.IsAwaited r.call ↔ Overtaken os r) := by
  intro c
  -- A request in the queue is of one of two kinds, and only one of them is waited for.
  have awaited (r : ActionRequest) :
      r ∈ c.queue ∧ c.IsAwaited r.call ↔ ∃ owner, Unanswered os owner r := by
    constructor
    · rintro ⟨queued, awaited⟩
      exact (unanswered_or_overtaken queued).resolve_right
        fun overtaken => overtaken.isLeft.not_isAwaited awaited
    · rintro ⟨owner, unanswered⟩
      exact ⟨unanswered.isFresh.queued, unanswered.isFresh.isAwaited⟩
  have useless (r : ActionRequest) : r ∈ c.queue ∧ ¬ c.IsAwaited r.call ↔ Overtaken os r := by
    constructor
    · rintro ⟨queued, useless⟩
      exact (unanswered_or_overtaken queued).resolve_left
        fun unanswered => useless ((awaited r).2 unanswered).2
    · exact fun overtaken => ⟨overtaken.isLeft.queued, overtaken.isLeft.not_isAwaited⟩
  refine ⟨⟨fun agrees r overtaken => ?_, fun never r queued => ?_⟩, fun r => ⟨awaited r, useless r⟩⟩
  · exact overtaken.isLeft.not_isAwaited (agrees r overtaken.isLeft.queued)
  · obtain ⟨owner, unanswered⟩ := (unanswered_or_overtaken queued).resolve_right (never r)
    exact unanswered.isFresh.isAwaited

/-- The result of a call comes in before its request has been taken. Nobody waits for the call any
more, but its request is still handed out. -/
theorem request_overtaken :
    let c := none.applyAll [.start ⟨1⟩ "lookup" ∅, .complete ⟨1⟩]
    c.takeRequests.1 = [⟨⟨1⟩, "lookup", ∅⟩] ∧ ¬ c.IsAwaited ⟨1⟩ ∧ ¬ c.QueueAgrees := by
  intro c
  have useless : ¬ c.IsAwaited ⟨1⟩ := by
    rintro ⟨call, pending, -⟩
    cases pending
  exact ⟨rfl, useless, fun agrees => useless (agrees ⟨⟨1⟩, "lookup", ∅⟩ List.mem_cons_self)⟩

end Dialogue.Calls
