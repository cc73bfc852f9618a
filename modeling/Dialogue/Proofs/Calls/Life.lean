import Dialogue.Proofs.Calls
import Mathlib.Data.List.Induction

/-!
# The life of a call

A call begins when it is started. Its request is queued then, and taken with the others that are
queued. It ends with its result, or when all calls are forgotten. In between it may be cancelled;
if its request is still queued, that is its end too.

What is kept of a call is spread over the pending calls and the queue. Seen from one call these are
a stage, and every operation takes a stage to the next one or ends the call. So what becomes of a
result can be read off the operations since the call was started, whatever happened to the others.

## Main definitions

* `Calls.Operation`, `Calls.applyAll` — what can be done with calls
* `Calls.Stage`, `Calls.stage?` — where a call is in its life
* `Calls.requested`, `Calls.handedOut`, `Calls.answers` — what a run gives out
* `Calls.Operation.settles`, `Calls.Operation.cancels` — the operations that end or cancel a call

## Main results

* `Calls.stage?_apply` — an operation takes every call to its next stage
* `Calls.stage?_applyAll_iff` — the stage of a call is due to the operations since its start
* `Calls.calls_complete_once` — every call has one result at most, and what becomes of it
-/

namespace Dialogue.Calls

/-! ## Operations -/

/-- What can be done with calls. -/
inductive Operation where
  | start (owner : InstanceId) (action : String) (params : Params)
  | takeRequests
  | complete (id : CallId)
  | cancel (id : CallId)
  | cancelOwned (owner : InstanceId)
  | clear

/-- The calls after an operation. -/
def apply (c : Calls) : Operation → Calls
  | .start owner action params => (c.start owner action params).2
  | .takeRequests => c.takeRequests.2
  | .complete id => (c.complete id).2
  | .cancel id => c.cancel id
  | .cancelOwned owner => c.cancelOwned owner
  | .clear => c.clear

namespace Operation

/-- The operation decides what becomes of a result: it comes in, or all calls are forgotten. -/
def settles (id : CallId) : Operation → Bool
  | .complete k => k = id
  | .clear => true
  | _ => false

/-- The operation cancels a call, by itself or with the others of its owner. -/
def cancels (id : CallId) (owner : InstanceId) : Operation → Bool
  | .cancel k => k = id
  | .cancelOwned k => k = owner
  | _ => false

theorem settles_of_cancels {id : CallId} {owner : InstanceId} {o : Operation}
    (h : o.cancels id owner = true) : o.settles id = false := by
  cases o <;> simp_all [cancels, settles]

end Operation

/-- The calls after a list of operations. -/
def applyAll (c : Calls) (os : List Operation) : Calls := os.foldl apply c

/-- What the operations of a list give out, one after the other. -/
def outputs {α : Type} (f : Calls → Operation → List α) : Calls → List Operation → List α
  | _, [] => []
  | c, o :: os => f c o ++ outputs f (c.apply o) os

/-- The requests that are queued in a run, each under the identifier that its call is given. -/
def requested : Calls → List Operation → List ActionRequest :=
  outputs fun c o =>
    match o with
    | .start owner action params => [⟨(c.start owner action params).1, action, params⟩]
    | _ => []

/-- The requests that are taken in a run. -/
def handedOut : Calls → List Operation → List ActionRequest :=
  outputs fun c o =>
    match o with
    | .takeRequests => c.takeRequests.1
    | _ => []

/-- The results that come in in a run, and what becomes of them. -/
def answers : Calls → List Operation → List (CallId × Completion) :=
  outputs fun c o =>
    match o with
    | .complete id => [(id, (c.complete id).1)]
    | _ => []

variable {c : Calls} {id : CallId} {owner : InstanceId} {action : String} {params : Params}
  {o : Operation} {os pre post : List Operation}

theorem applyAll_append (c : Calls) (os os' : List Operation) :
    c.applyAll (os ++ os') = (c.applyAll os).applyAll os' := List.foldl_append

theorem outputs_append {α : Type} (f : Calls → Operation → List α) (c : Calls)
    (os os' : List Operation) :
    outputs f c (os ++ os') = outputs f c os ++ outputs f (c.applyAll os) os' := by
  induction os generalizing c with
  | nil => rfl
  | cons o rest ih =>
    rw [List.cons_append, outputs, outputs, ih, List.append_assoc]
    rfl

theorem handedOut_append (c : Calls) (os os' : List Operation) :
    c.handedOut (os ++ os') = c.handedOut os ++ (c.applyAll os).handedOut os' :=
  outputs_append ..

/-! ## Identifiers -/

/-- Nothing but a start adds a call. -/
theorem loses_apply (c : Calls) {o : Operation}
    (h : ∀ owner action params, o ≠ .start owner action params) : c.Loses (c.apply o) := by
  cases o with
  | start owner action params => exact absurd rfl (h owner action params)
  | takeRequests => exact c.loses_takeRequests
  | complete id => exact c.loses_complete id
  | cancel id => exact c.loses_cancel id
  | cancelOwned owner => exact c.loses_cancelOwned owner
  | clear => exact c.loses_clear

theorem later_apply (c : Calls) (o : Operation) : c.Later (c.apply o) := by
  cases o with
  | start owner action params => exact c.later_start owner action params
  | _ => exact (c.loses_apply fun _ _ _ h => by cases h).later

/-- The identifiers of a run are given in ascending order, all of them behind those that have been
given before. -/
theorem ascending_requested (c : Calls) (os : List Operation) :
    ((c.requested os).map fun r => r.call.number).Pairwise (· < ·) ∧
      ∀ r ∈ c.requested os, c.issued < r.call.number := by
  induction os generalizing c with
  | nil => exact ⟨.nil, fun r hr => by cases hr⟩
  | cons o rest ih =>
    obtain ⟨ascending, behind⟩ := ih (c.apply o)
    cases o with
    | start owner action params =>
      refine ⟨List.pairwise_cons.2 ⟨fun n hn => ?_, ascending⟩, fun r hr => ?_⟩
      · obtain ⟨r, hr, rfl⟩ := List.mem_map.1 hn
        exact behind r hr
      · rcases List.mem_cons.1 hr with rfl | hr
        · exact Nat.lt_succ_self _
        · exact Nat.lt_of_succ_lt (behind r hr)
    | _ =>
      exact ⟨ascending, fun r hr => Nat.lt_of_le_of_lt (c.later_apply _).issued (behind r hr)⟩

/-! ## Stages -/

/-- Where a call is in its life. -/
structure Stage where
  /-- The instance that waits for the result. -/
  owner : InstanceId
  /-- The name of the action. -/
  action : String
  /-- Whether the result has become useless. -/
  isCancelled : Bool
  /-- Whether the request has not been taken yet. -/
  isQueued : Bool

/-- The stage of a call whose result has not come. -/
def stage? (c : Calls) (id : CallId) : Option Stage :=
  (c.pending.get? id).map fun call =>
    ⟨call.owner, call.action, call.isCancelled, c.queue.any fun r => r.call = id⟩

namespace Stage

/-- The stage of a call that has just been started. -/
def fresh (owner : InstanceId) (action : String) : Stage := ⟨owner, action, false, true⟩

/-- The stage of a call that is cancelled, unless that is its end. -/
def cancel (s : Stage) : Option Stage :=
  if s.isQueued then Option.none else some { s with isCancelled := true }

/-- The next stage of a call, unless an operation is its end. -/
def next (id : CallId) (s : Stage) : Operation → Option Stage
  | .start _ _ _ => some s
  | .takeRequests => some { s with isQueued := false }
  | .complete k => if k = id then Option.none else some s
  | .cancel k => if k = id then s.cancel else some s
  | .cancelOwned owner => if s.owner = owner && !s.isCancelled then s.cancel else some s
  | .clear => Option.none

/-- The stage of a call after a list of operations. -/
def run (id : CallId) (os : List Operation) (s : Stage) : Option Stage :=
  os.foldlM (fun s o => s.next id o) s

theorem run_append (id : CallId) (os os' : List Operation) (s : Stage) :
    run id (os ++ os') s = (run id os s).bind (run id os') := List.foldlM_append

theorem run_cons (id : CallId) (o : Operation) (os : List Operation) (s : Stage) :
    run id (o :: os) s = (s.next id o).bind (run id os) := rfl

theorem cancel_bind_cancel (s : Stage) : s.cancel.bind cancel = s.cancel := by
  unfold cancel
  cases s.isQueued <;> simp

/-- What an operation does not change about a call that it does not end, and whether the call has
been cancelled after it. -/
theorem next_eq_some {s t : Stage} (h : s.next id o = some t) :
    o.settles id = false ∧ t.owner = s.owner ∧ t.action = s.action ∧
      t.isCancelled = (s.isCancelled || o.cancels id s.owner) := by
  cases o <;> simp_all [next, cancel, Operation.settles, Operation.cancels] <;> grind

/-- Only by a request being taken does the call leave the queue and go on. -/
theorem isQueued_next {s t : Stage} (h : s.next id o = some t) (ho : o ≠ .takeRequests) :
    t.isQueued = s.isQueued := by
  cases o <;> simp_all [next, cancel] <;> grind

/-- A call does not come back into the queue. -/
theorem isQueued_next_of_taken {s t : Stage} (h : s.next id o = some t)
    (taken : s.isQueued = false) : t.isQueued = false := by
  by_cases ho : o = .takeRequests
  · subst ho
    obtain rfl := Option.some.inj h
    rfl
  · rw [isQueued_next h ho, taken]

/-- A call whose request is still queued would have ended with being cancelled. -/
theorem isQueued_of_cancels {s t : Stage} (h : s.next id o = some t) (hc : s.isCancelled = false)
    (cancels : o.cancels id s.owner = true) : s.isQueued = false := by
  cases o <;> simp_all [next, cancel, Operation.cancels]

/-- A call goes on unless it is settled, or cancelled before its request has been taken. -/
theorem isSome_next {s : Stage} (settles : o.settles id = false)
    (cancels : s.isQueued = false ∨ o.cancels id s.owner = false) : (s.next id o).isSome := by
  cases o <;> simp_all [next, cancel, Operation.settles, Operation.cancels] <;> grind

/-- What is known of a call that has not ended. -/
theorem run_eq_some {s t : Stage} (h : s.run id os = some t) :
    (∀ o ∈ os, o.settles id = false) ∧ t.owner = s.owner ∧ t.action = s.action ∧
      t.isCancelled = (s.isCancelled || os.any fun o => o.cancels id s.owner) := by
  induction os generalizing s with
  | nil =>
    obtain rfl := Option.some.inj h
    simp
  | cons o rest ih =>
    obtain ⟨u, hnext, hrun⟩ := Option.bind_eq_some_iff.1 (run_cons id o rest s ▸ h)
    obtain ⟨settles, owner, action, cancelled⟩ := next_eq_some hnext
    obtain ⟨settles', owner', action', cancelled'⟩ := ih hrun
    refine ⟨List.forall_mem_cons.2 ⟨settles, settles'⟩, owner'.trans owner,
      action'.trans action, ?_⟩
    rw [cancelled', cancelled, owner, List.any_cons, Bool.or_assoc]

theorem isSome_run {s : Stage} (settles : ∀ o ∈ os, o.settles id = false)
    (cancels : s.isQueued = false ∨ ∀ o ∈ os, o.cancels id s.owner = false) :
    (s.run id os).isSome := by
  induction os generalizing s with
  | nil => rfl
  | cons o rest ih =>
    obtain ⟨here, after⟩ := List.forall_mem_cons.1 settles
    obtain ⟨u, hnext⟩ := Option.isSome_iff_exists.1
      (isSome_next here (cancels.imp_right fun h => h o List.mem_cons_self))
    rw [run_cons, hnext]
    refine ih after (cancels.imp (isQueued_next_of_taken hnext) fun h => ?_)
    rw [(next_eq_some hnext).2.1]
    exact fun x hx => h x (List.mem_cons_of_mem _ hx)

end Stage

theorem stage?_start (c : Calls) (owner : InstanceId) (action : String) (params : Params)
    (id : CallId) : (c.start owner action params).2.stage? id =
      if id = ⟨c.issued + 1⟩ then some (.fresh owner action) else c.stage? id := by
  rw [stage?, get?_start]
  split
  · next h => simp [start, h, Stage.fresh]
  · next h => simp [start, stage?, Ne.symm h]

theorem stage?_takeRequests (c : Calls) (id : CallId) : c.takeRequests.2.stage? id =
    (c.stage? id).map fun s => { s with isQueued := false } := by
  cases h : c.pending.get? id <;> simp [takeRequests, stage?, h]

theorem stage?_complete (c : Calls) (k id : CallId) :
    (c.complete k).2.stage? id = if k = id then Option.none else c.stage? id := by
  unfold complete stage?
  split
  · next h =>
    split
    · next hk => simp [← hk, h]
    · rfl
  · by_cases hk : k = id
    · simp [hk, Table.get?_erase]
    · simp [hk, Ne.symm hk, Table.get?_erase]

theorem stage?_cancel (c : Calls) (k id : CallId) :
    (c.cancel k).stage? id = if k = id then (c.stage? id).bind Stage.cancel else c.stage? id := by
  unfold cancel
  split
  · next hq =>
    by_cases hk : k = id
    -- A call that is still queued is forgotten, and so is its request.
    · subst hk
      cases h : c.pending.get? k <;> simp [stage?, h, Stage.cancel, hq, Table.get?_erase]
    · have others : ∀ r : ActionRequest, (!decide (r.call = k) && decide (r.call = id)) =
          decide (r.call = id) := fun r => by
        by_cases hr : r.call = id <;> simp [hr, Ne.symm hk]
      simp [stage?, hk, Ne.symm hk, Table.get?_erase, List.any_filter, others]
  · next hq =>
    by_cases hk : k = id
    · subst hk
      cases h : c.pending.get? k <;> simp [stage?, h, Stage.cancel, hq, Table.get?_modify]
    · simp [stage?, hk, Ne.symm hk, Table.get?_modify]

theorem stage?_foldl_cancel (ids : List CallId) (c : Calls) (id : CallId) :
    (ids.foldl cancel c).stage? id =
      if id ∈ ids then (c.stage? id).bind Stage.cancel else c.stage? id := by
  induction ids generalizing c with
  | nil => rfl
  | cons k rest ih =>
    rw [List.foldl_cons, ih, stage?_cancel]
    by_cases hk : k = id
    -- To cancel a call twice is the same as to cancel it once.
    · subst hk
      have twice : ((c.stage? k).bind Stage.cancel).bind Stage.cancel =
          (c.stage? k).bind Stage.cancel := by
        rw [Option.bind_assoc]
        simp only [Stage.cancel_bind_cancel]
      simp [twice]
    · simp [hk, Ne.symm hk]

theorem mem_owned_iff : id ∈ c.owned owner ↔
    ∃ s, c.stage? id = some s ∧ s.owner = owner ∧ s.isCancelled = false := by
  unfold owned stage?
  rw [Table.mem_keys]
  constructor
  · rintro ⟨call, h⟩
    obtain ⟨hk, hp⟩ := Table.get?_filter.1 h
    exact ⟨_, Option.map_eq_some_iff.2 ⟨call, hk, rfl⟩, by simpa using hp⟩
  · rintro ⟨s, h, ho, hc⟩
    obtain ⟨call, hk, rfl⟩ := Option.map_eq_some_iff.1 h
    exact ⟨call, Table.get?_filter.2 ⟨hk, by simp_all⟩⟩

theorem stage?_cancelOwned (c : Calls) (owner : InstanceId) (id : CallId) :
    (c.cancelOwned owner).stage? id = (c.stage? id).bind fun s =>
      if s.owner = owner && !s.isCancelled then s.cancel else some s := by
  rw [cancelOwned, stage?_foldl_cancel]
  cases h : c.stage? id with
  | none => simp
  | some s => simp [mem_owned_iff, h]

/-- Of the calls of instances those that are still queued are forgotten, and the others are
cancelled. -/
theorem stage?_foldl_cancelOwned (ids : List InstanceId) (c : Calls) (k : CallId) :
    (ids.foldl cancelOwned c).stage? k = (c.stage? k).bind fun s =>
      if s.owner ∈ ids ∧ s.isCancelled = false then s.cancel else some s := by
  induction ids generalizing c with
  | nil => simp
  | cons id rest ih =>
    rw [List.foldl_cons, ih, stage?_cancelOwned, Option.bind_assoc]
    refine congrArg _ (funext fun s => ?_)
    by_cases hc : s.isCancelled = true
    · simp [hc]
    · by_cases ho : s.owner = id
      · cases hq : s.isQueued <;> simp [hc, ho, Stage.cancel, hq]
      · simp [hc, ho]

/-- A call of one of these instances is cancelled if it is still pending. -/
theorem isCancelled_foldl_cancelOwned {k : CallId} {call call' : Call} {ids : List InstanceId}
    (hk : c.pending.get? k = some call) (owner : call.owner ∈ ids)
    (h : (ids.foldl cancelOwned c).pending.get? k = some call') : call'.isCancelled = true := by
  have before : c.stage? k = some ⟨call.owner, call.action, call.isCancelled,
      c.queue.any fun r => r.call = k⟩ := by rw [stage?, hk]; rfl
  have after : ((ids.foldl cancelOwned c).stage? k).map Stage.isCancelled =
      some call'.isCancelled := by rw [stage?, h]; rfl
  rw [stage?_foldl_cancelOwned, before, Option.bind_some] at after
  cases hc : call.isCancelled with
  | true => simpa [hc] using after.symm
  | false =>
    simp only [owner, hc, Stage.cancel] at after
    split at after <;> simp_all

/-- The result of a call that has been cancelled is never delivered. -/
theorem Later.complete_of_cancelled {c d : Calls} {k : CallId} (h : c.Later d)
    (issued : k.number ≤ c.issued)
    (cancelled : ∀ call, c.pending.get? k = some call → call.isCancelled = true) :
    (d.complete k).1 = .unknown ∨ ∃ action, (d.complete k).1 = .discard action := by
  unfold complete
  cases hk : d.pending.get? k with
  | none => exact .inl rfl
  | some call' =>
    obtain ⟨call, hc, -, kept⟩ := h.pending k call' issued hk
    have useless := kept (cancelled call hc)
    exact .inr ⟨call'.action, if_pos useless⟩

/-- An operation takes a call that has been started to its next stage. -/
theorem stage?_apply (h : id.number ≤ c.issued) (o : Operation) :
    (c.apply o).stage? id = (c.stage? id).bind fun s => s.next id o := by
  cases o with
  | start owner action params =>
    simp [apply, stage?_start, Id.ne_next h, Stage.next]
  | takeRequests =>
    rw [apply, stage?_takeRequests]
    cases c.stage? id <;> rfl
  | complete k =>
    rw [apply, stage?_complete]
    cases c.stage? id <;> simp [Stage.next]
  | cancel k =>
    rw [apply, stage?_cancel]
    cases c.stage? id <;> simp [Stage.next]
  | cancelOwned owner =>
    rw [apply, stage?_cancelOwned]
    cases c.stage? id <;> rfl
  | clear =>
    show Option.none = _
    cases c.stage? id <;> rfl

theorem stage?_applyAll (h : id.number ≤ c.issued) (os : List Operation) :
    (c.applyAll os).stage? id = (c.stage? id).bind (Stage.run id os) := by
  induction os generalizing c with
  | nil => cases h : c.stage? id <;> simp [applyAll, Stage.run, h]
  | cons o rest ih =>
    have started := Nat.le_trans h (c.later_apply o).issued
    rw [applyAll, List.foldl_cons, ← applyAll, ih started, stage?_apply h, Option.bind_assoc]
    rfl

/-! ## What becomes of a result -/

theorem complete_fst (c : Calls) (id : CallId) : (c.complete id).1 =
    match c.stage? id with
    | .none => .unknown
    | some s => if s.isCancelled then .discard s.action else .deliver s.owner s.action := by
  unfold complete stage?
  cases c.pending.get? id <;> rfl

theorem complete_eq_deliver_iff : (c.complete id).1 = .deliver owner action ↔
    ∃ s, c.stage? id = some s ∧ s.isCancelled = false ∧ s.owner = owner ∧ s.action = action := by
  rw [complete_fst]
  cases c.stage? id with
  | none => simp
  | some s => cases h : s.isCancelled <;> simp [h]

theorem complete_eq_discard_iff : (c.complete id).1 = .discard action ↔
    ∃ s, c.stage? id = some s ∧ s.isCancelled = true ∧ s.action = action := by
  rw [complete_fst]
  cases c.stage? id with
  | none => simp
  | some s => cases h : s.isCancelled <;> simp [h]

theorem complete_eq_unknown_iff : (c.complete id).1 = .unknown ↔ c.stage? id = .none := by
  rw [complete_fst]
  cases c.stage? id with
  | none => simp
  | some s => cases h : s.isCancelled <;> simp [h]

/-- Nothing becomes of the results of a call that has ended. -/
theorem unknown_of_ended (started : id.number ≤ c.issued) (ended : c.stage? id = .none) :
    ∀ a ∈ c.answers os, a.1 = id → a.2 = .unknown := by
  induction os generalizing c with
  | nil => exact fun a ha => by cases ha
  | cons o rest ih =>
    intro a ha hid
    have later := ih (c := c.apply o) (Nat.le_trans started (c.later_apply o).issued)
      (by rw [stage?_apply started, ended]; rfl)
    rcases List.mem_append.1 ha with ha | ha
    · cases o with
      | complete k =>
        obtain rfl := List.mem_singleton.1 ha
        obtain rfl : k = id := hid
        exact complete_eq_unknown_iff.2 ended
      | _ => cases ha
    · exact later a ha hid

/-- Only calls that have been started are pending. -/
def Numbered (c : Calls) : Prop := ∀ id s, c.stage? id = some s → id.number ≤ c.issued

theorem Numbered.apply (h : c.Numbered) (o : Operation) : (c.apply o).Numbered := by
  intro id s hs
  by_cases start : ∃ owner action params, o = .start owner action params
  · obtain ⟨owner, action, params, rfl⟩ := start
    rw [Calls.apply, stage?_start] at hs
    split at hs
    · next hid => exact hid ▸ Nat.le_refl _
    · exact Nat.le_succ_of_le (h id s hs)
  · have loses := c.loses_apply fun owner action params ho => start ⟨owner, action, params, ho⟩
    obtain ⟨call', hk', -⟩ := Option.map_eq_some_iff.1 hs
    obtain ⟨call, hk, -⟩ := loses.pending id call' hk'
    rw [loses.issued]
    exact h id _ (Option.map_eq_some_iff.2 ⟨call, hk, rfl⟩)

theorem numbered_applyAll (os : List Operation) : (none.applyAll os).Numbered := by
  induction os using List.reverseRecOn with
  | nil => exact fun id s h => by cases h
  | append_singleton os o ih => exact applyAll_append none os [o] ▸ ih.apply o

/-- A call has one result at most. -/
theorem answers_pairwise (h : c.Numbered) (os : List Operation) :
    (c.answers os).Pairwise fun a b => a.1 = b.1 → a.2 = .unknown ∨ b.2 = .unknown := by
  induction os generalizing c with
  | nil => exact .nil
  | cons o rest ih =>
    have later := ih (h.apply o)
    cases o with
    | complete k =>
      refine List.pairwise_cons.2 ⟨fun b hb same => ?_, later⟩
      cases hs : c.stage? k with
      | none => exact .inl (complete_eq_unknown_iff.2 hs)
      -- With its result a call ends.
      | some s =>
        have ended : (c.complete k).2.stage? k = .none := by rw [stage?_complete, if_pos rfl]
        have started := Nat.le_trans (h k s hs) (c.later_apply (.complete k)).issued
        exact .inr (unknown_of_ended started ended b hb same.symm)
    | _ => exact later

/-! ## From the start of a call -/

/-- A pending call was started, and its stage is due to what has been done since. -/
theorem stage?_applyAll_iff {s : Stage} : (none.applyAll os).stage? id = some s ↔
    ∃ pre owner action params post, os = pre ++ .start owner action params :: post ∧
      ((none.applyAll pre).start owner action params).1 = id ∧
      Stage.run id post (.fresh owner action) = some s := by
  constructor
  · intro h
    induction os using List.reverseRecOn generalizing s with
    | nil => cases h
    | append_singleton os o ih =>
      have bound := numbered_applyAll (os ++ [o]) id s h
      rw [applyAll_append] at h bound
      by_cases started : id.number ≤ (none.applyAll os).issued
      · change ((none.applyAll os).apply o).stage? id = some s at h
        rw [stage?_apply started] at h
        obtain ⟨t, ht, hnext⟩ := Option.bind_eq_some_iff.1 h
        obtain ⟨pre, owner, action, params, post, rfl, hid, hrun⟩ := ih ht
        refine ⟨pre, owner, action, params, post ++ [o], by simp, hid, ?_⟩
        rw [Stage.run_append, hrun, Option.bind_some, Stage.run_cons, hnext]
        rfl
      -- What is pending only now has been started just now.
      · by_cases start : ∃ owner action params, o = .start owner action params
        · obtain ⟨owner, action, params, rfl⟩ := start
          change ((none.applyAll os).start owner action params).2.stage? id = some s at h
          rw [stage?_start] at h
          split at h
          · next hid => exact ⟨os, owner, action, params, [], rfl, hid.symm, h⟩
          · exact absurd (numbered_applyAll os id s h) started
        · have loses := (none.applyAll os).loses_apply
            fun owner action params ho => start ⟨owner, action, params, ho⟩
          exact absurd (loses.issued ▸ bound) started
  · rintro ⟨pre, owner, action, params, post, rfl, rfl, hrun⟩
    rw [applyAll_append]
    change (((none.applyAll pre).start owner action params).2.applyAll post).stage? ⟨_⟩ = _
    rwa [stage?_applyAll (Nat.le_refl _), stage?_start, if_pos rfl]

/-! ## Requests -/

theorem queue_cancel (c : Calls) (id : CallId) : (c.cancel id).queue.Sublist c.queue := by
  unfold cancel
  split
  · exact List.filter_sublist
  · exact List.Sublist.refl _

theorem queue_foldl_cancel (ids : List CallId) (c : Calls) :
    (ids.foldl cancel c).queue.Sublist c.queue := by
  induction ids generalizing c with
  | nil => exact List.Sublist.refl _
  | cons id rest ih => exact (ih _).trans (c.queue_cancel id)

/-- What has been taken and what is still queued have been queued in this order. -/
theorem sublist_requested (c : Calls) (os : List Operation) :
    (c.handedOut os ++ (c.applyAll os).queue).Sublist (c.queue ++ c.requested os) := by
  induction os generalizing c with
  | nil => exact (List.append_nil c.queue).symm ▸ List.Sublist.refl _
  | cons o rest ih =>
    have later := ih (c.apply o)
    cases o with
    | start owner action params =>
      -- The request is no longer to come, it is queued.
      have moved : c.queue ++ c.requested (.start owner action params :: rest) =
          (c.apply (.start owner action params)).queue ++
            (c.apply (.start owner action params)).requested rest :=
        (List.append_assoc c.queue [_] _).symm
      exact moved ▸ later
    | takeRequests =>
      -- The whole queue is handed out. The operations below only drop requests.
      have moved : c.handedOut (.takeRequests :: rest) =
          c.queue ++ (c.apply .takeRequests).handedOut rest := rfl
      rw [moved, List.append_assoc]
      exact (List.Sublist.refl _).append later
    | complete k =>
      have kept : (c.apply (.complete k)).queue = c.queue := by
        simp only [apply, complete]
        split <;> rfl
      exact kept ▸ later
    | cancel k => exact later.trans ((c.queue_cancel k).append (List.Sublist.refl _))
    | cancelOwned k =>
      exact later.trans ((queue_foldl_cancel (c.owned k) c).append (List.Sublist.refl _))
    | clear => exact later.trans (List.sublist_append_right _ _)

/-- A call whose request has been taken is not queued. -/
theorem isQueued_of_handedOut {s : Stage} (h : (none.applyAll os).stage? id = some s)
    (out : ∃ r ∈ none.handedOut os, r.call = id) : s.isQueued = false := by
  obtain ⟨call, -, rfl⟩ := Option.map_eq_some_iff.1 h
  obtain ⟨r, hr, rfl⟩ := out
  refine Bool.eq_false_iff.2 fun queued => ?_
  obtain ⟨q, hq, same⟩ := List.any_eq_true.1 queued
  -- What is queued has been started after all that has been taken.
  have ascending := (ascending_requested none os).1.sublist ((sublist_requested none os).map _)
  rw [List.map_append] at ascending
  have later := (List.pairwise_append.1 ascending).2.2 _ (List.mem_map_of_mem hr) _
    (List.mem_map_of_mem hq)
  rw [of_decide_eq_true same] at later
  exact Nat.lt_irrefl _ later

/-- A call that is queued, and later is not, has had its request taken meanwhile. -/
theorem exists_handedOut {s t : Stage} (started : id.number ≤ c.issued)
    (h : c.stage? id = some s) (queued : s.isQueued = true) (hrun : s.run id os = some t)
    (taken : t.isQueued = false) : ∃ r ∈ c.handedOut os, r.call = id := by
  induction os generalizing c s with
  | nil =>
    obtain rfl := Option.some.inj hrun
    exact absurd (queued.symm.trans taken) nofun
  | cons o rest ih =>
    obtain ⟨u, hnext, hrest⟩ := Option.bind_eq_some_iff.1 (Stage.run_cons id o rest s ▸ hrun)
    by_cases ho : o = .takeRequests
    · subst ho
      obtain ⟨call, -, rfl⟩ := Option.map_eq_some_iff.1 h
      obtain ⟨r, hr, same⟩ := List.any_eq_true.1 queued
      exact ⟨r, List.mem_append_left _ hr, of_decide_eq_true same⟩
    · obtain ⟨r, hr, same⟩ := ih (Nat.le_trans started (c.later_apply o).issued)
        (by rw [stage?_apply started, h]; exact hnext)
        ((Stage.isQueued_next hnext ho).trans queued) hrest
      exact ⟨r, List.mem_append_right _ hr, same⟩

/-! ## What the operations since the start say -/

theorem complete_eq_deliver_iff_since :
    ((none.applyAll os).complete id).1 = .deliver owner action ↔
      ∃ pre params post, os = pre ++ .start owner action params :: post ∧
        ((none.applyAll pre).start owner action params).1 = id ∧
        ∀ o ∈ post, o.settles id = false ∧ o.cancels id owner = false := by
  rw [complete_eq_deliver_iff]
  constructor
  · rintro ⟨s, hs, uncancelled, rfl, rfl⟩
    obtain ⟨pre, owner, action, params, post, rfl, hid, hrun⟩ := stage?_applyAll_iff.1 hs
    obtain ⟨settles, rfl, rfl, cancelled⟩ := Stage.run_eq_some hrun
    refine ⟨pre, params, post, rfl, hid, fun o ho => ⟨settles o ho, ?_⟩⟩
    exact Bool.eq_false_iff.2 (List.any_eq_false.1 (cancelled.symm.trans uncancelled) o ho)
  · rintro ⟨pre, params, post, rfl, hid, since⟩
    obtain ⟨s, hrun⟩ := Option.isSome_iff_exists.1 (Stage.isSome_run (s := .fresh owner action)
      (fun o ho => (since o ho).1) (.inr fun o ho => (since o ho).2))
    obtain ⟨-, rfl, rfl, cancelled⟩ := Stage.run_eq_some hrun
    refine ⟨s, stage?_applyAll_iff.2 ⟨pre, _, _, params, post, rfl, hid, hrun⟩, ?_, rfl, rfl⟩
    rw [cancelled]
    exact List.any_eq_false.2 fun o ho => Bool.eq_false_iff.1 (since o ho).2

theorem complete_eq_discard_iff_since :
    ((none.applyAll os).complete id).1 = .discard action ↔
      ∃ pre owner params mid o post,
        os = pre ++ .start owner action params :: (mid ++ o :: post) ∧
        ((none.applyAll pre).start owner action params).1 = id ∧
        (∀ x ∈ mid, x.settles id = false ∧ x.cancels id owner = false) ∧
        o.cancels id owner = true ∧
        (∃ r ∈ none.handedOut (pre ++ .start owner action params :: mid), r.call = id) ∧
        ∀ x ∈ post, x.settles id = false := by
  rw [complete_eq_discard_iff]
  constructor
  · rintro ⟨s, hs, isCancelled, rfl⟩
    obtain ⟨pre, owner, action, params, since, rfl, hid, hrun⟩ := stage?_applyAll_iff.1 hs
    obtain ⟨settles, rfl, rfl, cancelled⟩ := Stage.run_eq_some hrun
    -- The call is cancelled, so there is an operation that was the first to do it.
    obtain ⟨o, first⟩ := Option.isSome_iff_exists.1
      (List.find?_isSome.2 (List.any_eq_true.1 (cancelled.symm.trans isCancelled)))
    obtain ⟨cancels, mid, post, rfl, before⟩ := List.find?_eq_some_iff_append.1 first
    have uncancelled : ∀ x ∈ mid, x.cancels id s.owner = false := fun x hx => by
      simpa [Stage.fresh] using before x hx
    obtain ⟨hmid, -, hpost⟩ := List.forall_mem_append.1 settles |>.imp_right
      List.forall_mem_cons.1
    rw [Stage.run_append] at hrun
    obtain ⟨t, hrun, hrest⟩ := Option.bind_eq_some_iff.1 hrun
    obtain ⟨u, hnext, -⟩ := Option.bind_eq_some_iff.1 (Stage.run_cons id o post t ▸ hrest)
    obtain ⟨-, towner, -, tcancelled⟩ := Stage.run_eq_some hrun
    have taken := Stage.isQueued_of_cancels hnext
      (tcancelled.trans (List.any_eq_false.2 fun x hx => Bool.eq_false_iff.1 (uncancelled x hx)))
      (towner ▸ cancels)
    have started : ((none.applyAll pre).start s.owner s.action params).1.number ≤
        ((none.applyAll pre).start s.owner s.action params).2.issued := Nat.le_refl _
    obtain ⟨r, hr, same⟩ := exists_handedOut started ((stage?_start ..).trans (if_pos rfl)) rfl
      (hid ▸ hrun) taken
    refine ⟨pre, s.owner, params, mid, o, post, rfl, hid, fun x hx => ⟨hmid x hx, uncancelled x hx⟩,
      cancels, ⟨r, ?_, same.trans hid⟩, hpost⟩
    exact handedOut_append none pre _ ▸ List.mem_append_right _ hr
  · rintro ⟨pre, owner, params, mid, o, post, rfl, hid, before, cancels, out, after⟩
    obtain ⟨t, hmid⟩ := Option.isSome_iff_exists.1 (Stage.isSome_run (s := .fresh owner action)
      (fun x hx => (before x hx).1) (.inr fun x hx => (before x hx).2))
    have taken := isQueued_of_handedOut
      (stage?_applyAll_iff.2 ⟨pre, owner, action, params, mid, rfl, hid, hmid⟩) out
    obtain ⟨u, hnext⟩ := Option.isSome_iff_exists.1
      (Stage.isSome_next (Operation.settles_of_cancels cancels) (.inl taken))
    obtain ⟨s, hpost⟩ := Option.isSome_iff_exists.1
      (Stage.isSome_run after (.inl (Stage.isQueued_next_of_taken hnext taken)))
    have hrun : Stage.run id (mid ++ o :: post) (.fresh owner action) = some s := by
      rw [Stage.run_append, hmid, Option.bind_some, Stage.run_cons, hnext, Option.bind_some, hpost]
    obtain ⟨-, -, rfl, cancelled⟩ := Stage.run_eq_some hrun
    refine ⟨s, stage?_applyAll_iff.2 ⟨pre, owner, _, params, _, rfl, hid, hrun⟩, ?_, rfl⟩
    rw [cancelled]
    exact List.any_eq_true.2 ⟨o, List.mem_append_right _ List.mem_cons_self, cancels⟩

/-- Identifiers of calls are given in ascending order, so none is given twice, and the requests
that are taken are among those of the calls, in the order in which the calls were started. A call
has one result at most. The result is delivered to the owner of the call exactly if nothing has
settled or cancelled the call since it was started. It is discarded exactly if nothing has settled
the call since, and its request had been taken when it was cancelled for the first time. -/
theorem calls_complete_once (os : List Operation) :
    ((none.requested os).map fun r => r.call.number).Pairwise (· < ·) ∧
      (none.handedOut os).Sublist (none.requested os) ∧
      ((none.answers os).Pairwise fun a b => a.1 = b.1 → a.2 = .unknown ∨ b.2 = .unknown) ∧
      ∀ id,
        (∀ owner action, ((none.applyAll os).complete id).1 = .deliver owner action ↔
          ∃ pre params post, os = pre ++ .start owner action params :: post ∧
            ((none.applyAll pre).start owner action params).1 = id ∧
            ∀ o ∈ post, o.settles id = false ∧ o.cancels id owner = false) ∧
        ∀ action, ((none.applyAll os).complete id).1 = .discard action ↔
          ∃ pre owner params mid o post,
            os = pre ++ .start owner action params :: (mid ++ o :: post) ∧
            ((none.applyAll pre).start owner action params).1 = id ∧
            (∀ x ∈ mid, x.settles id = false ∧ x.cancels id owner = false) ∧
            o.cancels id owner = true ∧
            (∃ r ∈ none.handedOut (pre ++ .start owner action params :: mid), r.call = id) ∧
            ∀ x ∈ post, x.settles id = false := by
  refine ⟨(ascending_requested none os).1, ?_, answers_pairwise (numbered_applyAll []) os,
    fun id => ⟨fun owner action => complete_eq_deliver_iff_since,
      fun action => complete_eq_discard_iff_since⟩⟩
  exact (List.sublist_append_left _ _).trans (sublist_requested none os)

end Dialogue.Calls
