import Dialogue.Calls
import Dialogue.Proofs.Table
import Dialogue.Timers

/-!
# Calls and timers in the course of a session

Calls are only added by starting them, under an identifier that no earlier call has. Everything
else that is done to the calls of a session takes some of them away: their requests leave the queue,
they are forgotten, or they are cancelled. The same holds for timers. A call that is of no more use
stays so for that reason, whatever else is started.

## Main definitions

* `Calls.Loses`, `Timers.Loses` — what may happen without starting a call or arming a timer
* `Calls.Later`, `Timers.Later` — what may happen at all
* `Calls.IsSpent` — a call that will not be dispatched, and whose result nobody gets

## Main results

* `Calls.Later.isSpent` — a spent call stays spent
* `Calls.isSpent_cancel` — a cancelled call is spent
* `Calls.isSpent_iff` — spent calls in terms of what is dispatched and what is delivered
-/

namespace Dialogue

/-- An identifier that has been given is another one than the next. -/
theorem Id.ne_next {kind : Numbered} {id : Id kind} {n : Nat} (h : id.number ≤ n) :
    id ≠ ⟨n + 1⟩ := by
  rintro rfl
  exact Nat.not_succ_le_self n h

namespace Calls

variable {c d e : Calls} {id k : CallId} {owner : InstanceId}

/-- Some calls are taken away: requests leave the queue, and pending calls are forgotten or
cancelled. -/
structure Loses (c d : Calls) : Prop where
  issued : d.issued = c.issued
  queue : ∀ r ∈ d.queue, r ∈ c.queue
  pending : ∀ k call', d.pending.get? k = some call' → ∃ call, c.pending.get? k = some call ∧
    call'.owner = call.owner ∧ (call.isCancelled = true → call'.isCancelled = true)

theorem Loses.refl (c : Calls) : c.Loses c :=
  ⟨rfl, fun _ h => h, fun _ call h => ⟨call, h, rfl, id⟩⟩

theorem Loses.trans (h : c.Loses d) (h' : d.Loses e) : c.Loses e where
  issued := h'.issued.trans h.issued
  queue r hr := h.queue r (h'.queue r hr)
  pending k call hk := by
    obtain ⟨call', hk', ho', hc'⟩ := h'.pending k call hk
    obtain ⟨call'', hk'', ho'', hc''⟩ := h.pending k call' hk'
    exact ⟨call'', hk'', ho'.trans ho'', hc' ∘ hc''⟩

/-- Of the calls that there have been, some may have been taken away. -/
structure Later (c d : Calls) : Prop where
  issued : c.issued ≤ d.issued
  queue : ∀ r ∈ d.queue, r.call.number ≤ c.issued → r ∈ c.queue
  pending : ∀ k call', k.number ≤ c.issued → d.pending.get? k = some call' →
    ∃ call, c.pending.get? k = some call ∧
      call'.owner = call.owner ∧ (call.isCancelled = true → call'.isCancelled = true)

theorem Loses.later (h : c.Loses d) : c.Later d :=
  ⟨Nat.le_of_eq h.issued.symm, fun r hr _ => h.queue r hr, fun k call' _ hk => h.pending k call' hk⟩

theorem Later.trans (h : c.Later d) (h' : d.Later e) : c.Later e where
  issued := Nat.le_trans h.issued h'.issued
  queue r hr hn := h.queue r (h'.queue r hr (Nat.le_trans hn h.issued)) hn
  pending k call hn hk := by
    obtain ⟨call', hk', ho', hc'⟩ := h'.pending k call (Nat.le_trans hn h.issued) hk
    obtain ⟨call'', hk'', ho'', hc''⟩ := h.pending k call' hn hk'
    exact ⟨call'', hk'', ho'.trans ho'', hc' ∘ hc''⟩

/-- The call will not be dispatched, and its result, should it come, is of no use. -/
def IsSpent (c : Calls) (k : CallId) : Prop :=
  (∀ r ∈ c.queue, r.call ≠ k) ∧ ∀ call, c.pending.get? k = some call → call.isCancelled = true

/-- A spent call is not queued for dispatch, and its result is not delivered. -/
theorem isSpent_iff : c.IsSpent k ↔
    (∀ r ∈ c.queue, r.call ≠ k) ∧ ∀ owner action, (c.complete k).1 ≠ .deliver owner action := by
  refine and_congr_right fun _ => ?_
  unfold complete
  -- A result is delivered only to the owner of a pending call that is not cancelled.
  cases h : c.pending.get? k with
  | none => simp
  | some call =>
    cases hc : call.isCancelled <;> simp [hc]

/-- A spent call stays spent. -/
theorem Later.isSpent (h : c.Later d) (hk : k.number ≤ c.issued) (hs : c.IsSpent k) :
    d.IsSpent k := by
  constructor
  · rintro r hr rfl
    exact hs.1 r (h.queue r hr hk) rfl
  · intro call' hd
    obtain ⟨call, hc, -, hcancelled⟩ := h.pending k call' hk hd
    exact hcancelled (hs.2 call hc)

theorem Loses.isSpent (h : c.Loses d) (hs : c.IsSpent k) : d.IsSpent k := by
  refine ⟨fun r hr => hs.1 r (h.queue r hr), fun call' hd => ?_⟩
  obtain ⟨call, hc, -, cancelled⟩ := h.pending k call' hd
  exact cancelled (hs.2 call hc)

/-! ## Starting a call -/

theorem get?_start (c : Calls) (owner : InstanceId) (action : String) (params : Params)
    (k : CallId) : (c.start owner action params).2.pending.get? k =
      if k = ⟨c.issued + 1⟩ then some ⟨owner, action, false⟩ else c.pending.get? k :=
  Table.get?_insert ..

theorem later_start (c : Calls) (owner : InstanceId) (action : String) (params : Params) :
    c.Later (c.start owner action params).2 := by
  refine ⟨Nat.le_succ _, fun r hr hn => ?_, fun k call hn h => ?_⟩
  -- The only request that is new is the one of the call that is started.
  · rcases List.mem_append.1 hr with hr | hr
    · exact hr
    · obtain rfl := List.mem_singleton.1 hr
      exact absurd rfl (Id.ne_next hn)
  · rw [get?_start, if_neg (Id.ne_next hn)] at h
    exact ⟨call, h, rfl, fun h => h⟩

/-! ## Losing calls -/

theorem loses_takeRequests (c : Calls) : c.Loses c.takeRequests.2 :=
  ⟨rfl, fun _ h => absurd h List.not_mem_nil, fun _ call h => ⟨call, h, rfl, id⟩⟩

theorem loses_complete (c : Calls) (id : CallId) : c.Loses (c.complete id).2 := by
  unfold complete
  split
  · exact Loses.refl c
  · refine ⟨rfl, fun _ h => h, fun k call h => ?_⟩
    simp only [Table.get?_erase] at h
    split at h
    · cases h
    · exact ⟨call, h, rfl, fun h => h⟩

/-- A result leaves the other calls pending as they are. -/
theorem get?_complete_of_ne (h : k ≠ id) : (c.complete id).2.pending.get? k = c.pending.get? k := by
  unfold complete
  split
  · rfl
  · simp [Table.get?_erase, h]

theorem loses_clear (c : Calls) : c.Loses c.clear :=
  ⟨rfl, fun _ h => absurd h List.not_mem_nil, fun _ _ h => by cases h⟩

theorem loses_cancel (c : Calls) (id : CallId) : c.Loses (c.cancel id) := by
  unfold cancel
  split
  · refine ⟨rfl, fun r hr => (List.mem_filter.1 hr).1, fun k call h => ?_⟩
    simp only [Table.get?_erase] at h
    split at h
    · cases h
    · exact ⟨call, h, rfl, fun h => h⟩
  · refine ⟨rfl, fun r hr => hr, fun k call h => ?_⟩
    simp only [Table.get?_modify] at h
    split at h
    · obtain ⟨call', h', rfl⟩ := Option.map_eq_some_iff.1 h
      exact ⟨call', h', rfl, fun _ => rfl⟩
    · exact ⟨call, h, rfl, fun h => h⟩

/-- A cancelled call is spent. -/
theorem isSpent_cancel (c : Calls) (id : CallId) : (c.cancel id).IsSpent id := by
  unfold cancel
  -- A call that is still queued is forgotten, and one that has been dispatched is marked.
  split
  · refine ⟨fun r hr => by simpa using (List.mem_filter.1 hr).2, fun call h => ?_⟩
    simp [Table.get?_erase] at h
  · next hq =>
    refine ⟨fun r hr => ?_, fun call h => ?_⟩
    · exact fun heq => hq (List.any_eq_true.2 ⟨r, hr, by simp [heq]⟩)
    · simp only [Table.get?_modify] at h
      obtain ⟨call', -, rfl⟩ := Option.map_eq_some_iff.1 h
      rfl

/-- Cancelling a call leaves the others pending as they are. -/
theorem get?_cancel_of_ne (h : k ≠ id) : (c.cancel id).pending.get? k = c.pending.get? k := by
  unfold cancel
  split <;> simp [Table.get?_erase, Table.get?_modify, h]

private theorem loses_foldl_cancel (ids : List CallId) (c : Calls) :
    c.Loses (ids.foldl cancel c) := by
  induction ids generalizing c with
  | nil => exact .refl c
  | cons id rest ih => exact (loses_cancel c id).trans (ih _)

private theorem isSpent_foldl_cancel {k : CallId} {ids : List CallId} (c : Calls) (h : k ∈ ids) :
    (ids.foldl cancel c).IsSpent k := by
  induction ids generalizing c with
  | nil => cases h
  | cons id rest ih =>
    by_cases hk : k ∈ rest
    · exact ih _ hk
    · obtain rfl := (List.mem_cons.1 h).resolve_right hk
      exact (loses_foldl_cancel rest _).isSpent (c.isSpent_cancel k)

private theorem get?_foldl_cancel {k : CallId} {ids : List CallId} (c : Calls) (h : k ∉ ids) :
    (ids.foldl cancel c).pending.get? k = c.pending.get? k := by
  induction ids generalizing c with
  | nil => rfl
  | cons id rest ih =>
    obtain ⟨hne, hrest⟩ := not_or.1 (mt List.mem_cons.2 h)
    rw [List.foldl_cons, ih _ hrest]
    exact get?_cancel_of_ne hne

theorem loses_cancelOwned (c : Calls) (owner : InstanceId) : c.Loses (c.cancelOwned owner) :=
  loses_foldl_cancel _ c

/-- Of the calls of one instance none is left that has not been cancelled. -/
theorem isCancelled_cancelOwned {call : Call}
    (h : (c.cancelOwned owner).pending.get? k = some call) (ho : call.owner = owner) :
    call.isCancelled = true := by
  obtain ⟨call₀, h₀, same, kept⟩ := (c.loses_cancelOwned owner).pending k call h
  cases hc : call₀.isCancelled with
  | true => exact kept hc
  -- It was one of those that have been cancelled now.
  | false =>
    have owned : k ∈ c.owned owner :=
      Table.mem_keys.2 ⟨call₀, Table.get?_filter.2 ⟨h₀, by simp [← same, ho, hc]⟩⟩
    exact (isSpent_foldl_cancel c owned).2 call h

/-- Cancelling the calls of one instance leaves those of the others pending. -/
theorem get?_cancelOwned {call : Call} (h : c.pending.get? k = some call)
    (ho : call.owner ≠ owner) : (c.cancelOwned owner).pending.get? k = some call := by
  refine (get?_foldl_cancel c fun hk => ho ?_).trans h
  -- What is cancelled is owned by the instance, and this call is not.
  obtain ⟨call', hk'⟩ := Table.mem_keys.1 hk
  obtain ⟨h', hp⟩ := Table.get?_filter.1 hk'
  obtain rfl := Option.some.inj (h.symm.trans h')
  simpa using (Bool.and_eq_true_iff.1 hp).1

end Calls

namespace Timers

variable {t u v : Timers} {k : TimerId} {now : Instant} {timer : Timer}

/-- Some timers are taken out. -/
structure Loses (t u : Timers) : Prop where
  issued : u.issued = t.issued
  armed : ∀ k timer, u.armed.get? k = some timer → t.armed.get? k = some timer

theorem Loses.refl (t : Timers) : t.Loses t := ⟨rfl, fun _ _ h => h⟩

theorem Loses.trans (h : t.Loses u) (h' : u.Loses v) : t.Loses v :=
  ⟨h'.issued.trans h.issued, fun k timer hk => h.armed k timer (h'.armed k timer hk)⟩

/-- Of the timers that there have been, some may have been taken out. -/
structure Later (t u : Timers) : Prop where
  issued : t.issued ≤ u.issued
  armed : ∀ k timer, k.number ≤ t.issued → u.armed.get? k = some timer →
    t.armed.get? k = some timer

theorem Loses.later (h : t.Loses u) : t.Later u :=
  ⟨Nat.le_of_eq h.issued.symm, fun k timer _ hk => h.armed k timer hk⟩

theorem Later.trans (h : t.Later u) (h' : u.Later v) : t.Later v where
  issued := Nat.le_trans h.issued h'.issued
  armed k timer hn hk := h.armed k timer hn (h'.armed k timer (Nat.le_trans hn h.issued) hk)

/-- A timer that has been taken out stays out. -/
theorem Later.get?_eq_none (h : t.Later u) (hk : k.number ≤ t.issued)
    (ht : t.armed.get? k = .none) : u.armed.get? k = .none := by
  rw [Option.eq_none_iff_forall_ne_some] at ht ⊢
  exact fun timer hu => ht timer (h.armed k timer hk hu)

theorem later_arm (t : Timers) (deadline : Instant) (owner : InstanceId) :
    t.Later (t.arm deadline owner).2 := by
  refine ⟨Nat.le_succ _, fun k timer hn h => ?_⟩
  rwa [arm, Table.get?_insert, if_neg (Id.ne_next hn)] at h

theorem loses_cancel (t : Timers) (id : TimerId) : t.Loses (t.cancel id) := by
  refine ⟨rfl, fun k timer h => ?_⟩
  simp only [cancel, Table.get?_erase] at h
  split at h
  · cases h
  · exact h

theorem loses_clear (t : Timers) : t.Loses t.clear := ⟨rfl, fun _ _ h => by cases h⟩

theorem loses_takeDue (t : Timers) (now : Instant) : t.Loses (t.takeDue now).2 :=
  ⟨rfl, fun _ _ h => (Table.get?_filter.1 h).1⟩

/-! ## Timers that are due -/

theorem mem_due_iff : (k, timer) ∈ t.due now ↔
    t.armed.get? k = some timer ∧ timer.deadline ≤ now := by
  simp [due, Table.mem_entries]

theorem get?_takeDue :
    (t.takeDue now).2.armed.get? k = some timer ↔
      t.armed.get? k = some timer ∧ now < timer.deadline := by
  simp [takeDue, Table.get?_filter]

end Timers

end Dialogue
