import Dialogue.Proofs.Session.History

/-!
# Calls and their owners

A call is started when an instance is about to be suspended at a `select`, for one of its arms. The
calls of a wait are those that have been started for it, no others. If one of the leads cannot be
started, the instance is ended, and the calls that have been started until then are given up with
it.

## Main results

* `Cascade.mem_of_armAll` — the calls of a wait are those that have been started for it
* `Cascade.calls_of_execute_ok`, `Cascade.calls_of_execute_error` — what an instruction starts
* `Cascade.not_stands_terminate` — an instance that is ended early gives up its calls
* `Cascade.loses_disarm` — no call is started at the end of a wait
-/

namespace Dialogue.Cascade

variable {c c' : Cascade} {id : InstanceId} {i : Instance} {w : Wait} {k : CallId}

/-! ## Starting calls -/

/-- The call that a lead waits for is the one that has been started for it. -/
theorem armLead_call {lead : Lead} {a : Armed} (h : c.armLead i lead = (c', .ok a)) :
    c.calls.issued ≤ c'.calls.issued ∧ ∀ k : CallId, a = .call k ↔
      c.calls.issued < k.number ∧ k.number ≤ c'.calls.issued := by
  have same : c'.calls = c.calls → (∀ k, a ≠ .call k) → c.calls.issued ≤ c'.calls.issued ∧
      ∀ k : CallId, a = .call k ↔ c.calls.issued < k.number ∧ k.number ≤ c'.calls.issued := by
    intro calls other
    rw [calls]
    exact ⟨Nat.le_refl _, fun k => iff_of_false (other k) fun ⟨lt, le⟩ => Nat.not_lt_of_le le lt⟩
  cases startsLead_armLead h with
  | event => exact same rfl nofun
  | child _ spawned => exact same (spawn_frame spawned).2.2.2.2.1 nofun
  | call =>
    refine ⟨Nat.le_succ _, fun ⟨n⟩ => ?_⟩
    rw [Armed.call.injEq, Id.mk.injEq]
    show c.calls.issued + 1 = n ↔ c.calls.issued < n ∧ n ≤ c.calls.issued + 1
    omega

/-- The calls that the leads of a `select` wait for are those that have been started for them. -/
theorem mem_of_armAll {arms : List Arm} {armed : List Armed}
    (h : c.armAll i arms = (c', .ok armed)) : c.calls.issued ≤ c'.calls.issued ∧
      ∀ k : CallId, .call k ∈ armed ↔ c.calls.issued < k.number ∧ k.number ≤ c'.calls.issued := by
  induction arms generalizing c armed with
  | nil =>
    cases startsLeads_armAll h with
    | nil =>
      exact ⟨Nat.le_refl _, fun k => iff_of_false List.not_mem_nil fun ⟨lt, le⟩ =>
        Nat.not_lt_of_le le lt⟩
  | cons arm rest ih =>
    cases startsLeads_armAll h with
    | cons first others =>
      obtain ⟨grows₁, started⟩ := armLead_call first
      obtain ⟨grows₂, starting⟩ := ih others
      refine ⟨Nat.le_trans grows₁ grows₂, fun k => ?_⟩
      rw [List.mem_cons, starting k, eq_comm, started k]
      omega

/-- What a lead starts belongs to the instance that waits. -/
theorem owner_of_armLead {lead : Lead} {a : Armed} (hs : c.toSession.Sound)
    (h : c.armLead i lead = (c', .ok a)) {call : Call}
    (hcall : c'.calls.pending.get? k = some call) (new : c.calls.issued < k.number) :
    call.owner = i.id := by
  have old : c'.calls = c.calls → call.owner = i.id := by
    intro same
    rw [same] at hcall
    exact absurd (hs.calls k call hcall) (Nat.not_le_of_lt new)
  cases startsLead_armLead h with
  | event => exact old rfl
  | child _ spawned => exact old (spawn_frame spawned).2.2.2.2.1
  | call =>
    have hcall := (Calls.get?_start ..).symm.trans hcall
    split at hcall
    · exact Option.some.inj hcall ▸ rfl
    · exact absurd (hs.calls k call hcall) (Nat.not_le_of_lt new)

theorem later_armAll {arms : List Arm} {r : Except FlowError (List Armed)}
    (hs : c.toSession.Sound) (hi : (c.instances.get? i.id).isSome)
    (h : c.armAll i arms = (c', r)) : c.toSession.Later c'.toSession := by
  cases r with
  | ok armed => exact Changes.later (armAll_ok hs hi h).1
  | error e => exact Changes.later (armAll_error hs hi h).1

/-- What the leads of a `select` start belongs to the instance that waits, even if one of them
cannot be started. -/
theorem owner_of_armAll {arms : List Arm} {r : Except FlowError (List Armed)} {call : Call}
    (hs : c.toSession.Sound) (hi : (c.instances.get? i.id).isSome)
    (h : c.armAll i arms = (c', r)) (hcall : c'.calls.pending.get? k = some call)
    (new : c.calls.issued < k.number) : call.owner = i.id := by
  induction arms generalizing c r with
  | nil =>
    cases startsLeads_armAll h with
    | nil => exact absurd new (Nat.not_lt_of_le (hs.calls k call hcall))
  | cons arm rest ih =>
    have further {c₁ : Cascade} {a : Armed} {r : Except FlowError (List Armed)}
        (first : c.armLead i arm.lead = (c₁, .ok a)) (others : c₁.armAll i rest = (c', r)) :
        call.owner = i.id := by
      obtain ⟨changes, expands, -⟩ := armLead_ok hs hi first
      have hs₁ := Changes.sound changes hs
      have hi₁ := expands.isSome hi
      by_cases newer : c₁.calls.issued < k.number
      · exact ih hs₁ hi₁ others newer
      -- A call that has been started first belongs to the same instance ever after.
      · obtain ⟨call₁, hcall₁, owner, -⟩ :=
          (later_armAll hs₁ hi₁ others).calls.pending k call (Nat.le_of_not_lt newer) hcall
        exact owner.trans (owner_of_armLead hs first hcall₁ new)
    cases startsLeads_armAll h with
    | fail => exact absurd new (Nat.not_lt_of_le (hs.calls k call hcall))
    | stall first others => exact further first others
    | cons first others => exact further first others

/-- An instance that is suspended expects the calls that have been started for that. -/
theorem waitOf?_suspended {s : Select} {arms : List Armed} (hs : c.toSession.Sound)
    (hi : c.instances.get? i.id = some i) (armed : c.armAll i s.arms = (c', .ok arms))
    (deadline : Option Instant) :
    ∃ w, (c'.suspended i arms deadline).toSession.waitOf? i.id = some w ∧
      ∀ k : CallId, .call k ∈ w.arms ↔ c.calls.issued < k.number ∧
        k.number ≤ (c'.suspended i arms deadline).calls.issued := by
  obtain ⟨-, expands, -⟩ := armAll_ok hs (by rw [hi]; rfl) armed
  obtain ⟨i₁, hi₁, -⟩ := expands.old _ _ hi
  obtain ⟨timer, timers, eq⟩ := exists_suspended_eq c' i arms deadline
  rw [eq]
  refine ⟨⟨i.pc, arms, timer⟩, ?_, (mem_of_armAll armed).2⟩
  rw [change_eq (c := { c' with timers }) hi₁, Session.waitOf?, Table.get?_insert_self]
  rfl

/-! ## Instructions -/

theorem Removes.loses_calls (h : Removes c c') : c.calls.Loses c'.calls := by
  induction h with
  | refl => exact .refl _
  | tail _ last ih =>
    obtain ⟨id, ends⟩ := last
    exact ih.trans ends.calls

/-- An instruction that does not fail starts no calls, or suspends its instance for them. -/
theorem calls_of_execute_ok {instr : Instr} {children : List InstanceId} (hs : c.toSession.Sound)
    (hi : c.instances.get? i.id = some i) (hr : i.phase = .running)
    (h : c.execute i instr = (c', .ok children)) :
    (∃ w, c'.toSession.waitOf? i.id = some w ∧ ∀ k : CallId, .call k ∈ w.arms ↔
      c.calls.issued < k.number ∧ k.number ≤ c'.calls.issued) ∨
        c'.calls.issued = c.calls.issued ∧ c'.toSession.waitOf? i.id = none := by
  cases carriesOut_execute h with
  | suspend _ armed => exact .inl (waitOf?_suspended hs hi armed _)
  | start _ spawned =>
    have calls : c'.calls = c.calls := (spawn_frame spawned).2.2.2.2.1
    exact .inr ⟨congrArg Calls.issued calls, waitOf?_start hs hi hr spawned⟩
  | send => exact .inr ⟨rfl, (goesOn_send hi hr _ _).waitOf?⟩
  | share => exact .inr ⟨rfl, (goesOn_share hi hr _ _).waitOf?⟩
  | bind => exact .inr ⟨rfl, (goesOn_bind hi hr _ _).waitOf?⟩
  | branch => exact .inr ⟨rfl, (goesOn_goto hi hr _).waitOf?⟩
  | jump => exact .inr ⟨rfl, (goesOn_goto hi hr _).waitOf?⟩
  | finish =>
    have prunes := prunes_complete hs hi (Instance.wait?_of_running hr)
    exact .inr ⟨prunes.removes.loses_calls.issued, (goesOn_complete hs hi hr).waitOf?⟩

/-- An instruction that fails starts no calls but for its own instance, which is still live. -/
theorem calls_of_execute_error {instr : Instr} {e : FlowError} (hs : c.toSession.Sound)
    (hi : c.instances.get? i.id = some i) (h : c.execute i instr = (c', .error e)) :
    (c'.instances.get? i.id).isSome ∧ ∀ k call, c'.calls.pending.get? k = some call →
      c.calls.issued < k.number → call.owner = i.id := by
  have live : (c.instances.get? i.id).isSome := by rw [hi]; rfl
  have unchanged : ∀ {d : Cascade}, d.calls = c.calls → ∀ k call,
      d.calls.pending.get? k = some call → c.calls.issued < k.number → call.owner = i.id := by
    intro d same k call hcall new
    rw [same] at hcall
    exact absurd (hs.calls k call hcall) (Nat.not_le_of_lt new)
  cases carriesOut_execute h with
  | unbound | beyond | abort => exact ⟨live, unchanged rfl⟩
  | stall failed =>
    exact ⟨(armAll_error hs live failed).2.isSome live, fun k call hcall new =>
      owner_of_armAll hs live failed hcall new⟩
  | missing =>
    refine ⟨?_, unchanged rfl⟩
    rw [goto, change_eq hi]
    simp

/-! ## Giving up calls -/

theorem stands_of_loses (calls : c.calls.Loses c'.calls)
    (stands : c'.toSession.Stands id (.call k)) : c.toSession.Stands id (.call k) := by
  obtain ⟨call', hcall', rfl, alive⟩ := stands
  obtain ⟨call, hcall, owner, cancelled⟩ := calls.pending k call' hcall'
  refine ⟨call, hcall, owner.symm, ?_⟩
  rw [← Bool.not_eq_true]
  intro dead
  rw [cancelled dead] at alive
  cases alive

theorem not_stands_abort (hi : (c.instances.get? id).isSome) (error : FlowError) :
    ¬ (c.abort id error).toSession.Stands id (.call k) := by
  obtain ⟨i, hi⟩ := Option.isSome_iff_exists.1 hi
  have calls : (c.abort id error).calls = c.calls.cancelOwned id := by
    simp only [abort, hi]
    rfl
  rintro ⟨call, hcall, owner, alive⟩
  rw [show (c.abort id error).toSession.calls = _ from calls] at hcall
  rw [Calls.isCancelled_cancelOwned hcall owner] at alive
  cases alive

theorem not_stands_foldl_abort (error : InstanceId → FlowError) (ids : List InstanceId)
    (hs : c.toSession.Sound) (hi : (c.instances.get? id).isSome) (h : id ∈ ids) :
    ¬ (ids.foldl (fun c id => c.abort id (error id)) c).toSession.Stands id (.call k) := by
  induction ids generalizing c with
  | nil => cases h
  | cons j rest ih =>
    have hs₁ := (removes_abort hs j (error j)).1.sound hs
    by_cases hj : id = j
    · subst hj
      have more := (removes_foldl_abort error rest hs₁).1
      exact fun stands => not_stands_abort hi (error id) (stands_of_loses more.loses_calls stands)
    -- Until its turn the instance stays live.
    · have live := isSome_foldl_abort error [j] hs (by simpa using hj) hi
      exact ih hs₁ live ((List.mem_cons.1 h).resolve_left hj)

/-- Of an instance that is ended early no call is of use any more. -/
theorem not_stands_terminate (hs : c.toSession.Sound) (hi : (c.instances.get? id).isSome)
    (error : FlowError) (isReported : Bool) :
    ¬ (c.terminate id error isReported).toSession.Stands id (.call k) := by
  obtain ⟨i, live⟩ := Option.isSome_iff_exists.1 hi
  simp only [terminate, live]
  exact not_stands_foldl_abort (c := { c with failures := _ })
    (fun k => if k = id then error else .parentTerminated i.label) _ hs hi
    (Instance.mem_subtree_of_mem List.mem_cons_self hi)

theorem loses_terminate (hs : c.toSession.Sound) (id : InstanceId) (error : FlowError)
    (isReported : Bool) : c.calls.Loses (c.terminate id error isReported).calls := by
  cases hi : c.instances.get? id with
  | none =>
    rw [terminate_eq_self hi]
    exact .refl _
  | some i => exact (prunes_terminate hs hi error isReported).1.removes.loses_calls

theorem loses_giveUp (hs : c.toSession.Sound) (a : Armed) : c.calls.Loses (c.giveUp a).calls := by
  cases a with
  | event => exact .refl _
  | child k => exact loses_terminate hs k _ false
  | call k => exact c.calls.loses_cancel k

theorem loses_giveUpAll (kept : Option Nat) : ∀ (arms : List Armed) (index : Nat) {c : Cascade},
    c.toSession.Sound → Owns id arms c → c.calls.Loses (c.giveUpAll kept index arms).calls
  | [], _, _, _, _ => .refl _
  | a :: rest, index, c, hs, h => by
    have single : Owns id [a] c := h.changes .refl (by simp)
    have given := (giveUp_spec hs single).1
    unfold giveUpAll
    split
    · exact loses_giveUpAll kept rest _ hs (h.changes .refl fun b hb => List.mem_cons_of_mem a hb)
    · exact (loses_giveUp hs a).trans (loses_giveUpAll kept rest _ (Changes.sound given hs)
        (h.changes given fun b hb => List.mem_cons_of_mem a hb))

theorem loses_disarm (hs : c.toSession.Sound) (hi : c.instances.get? id = some i)
    (hw : i.wait? = some w) (kept : Option Nat) : c.calls.Loses (c.disarm i kept).calls := by
  obtain rfl := hs.id_eq hi
  rw [disarm_eq hi hw]
  exact loses_giveUpAll (c := c.awaken i w) kept w.arms 0 ((wakes_awaken hi hw).sound hs)
    (owns_awaken hs hi hw)

end Dialogue.Cascade
