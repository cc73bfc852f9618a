import Dialogue.Proofs.Session.Isolation
import Dialogue.Proofs.Session.Progress

/-!
# Clocks and deadlines

The clock of a session goes on when timers fire, or by itself. When timers fire, whatever is due is
taken out, and a timer that is armed anew is counted from the clock. So between two operations no
timer is armed for a time that has passed, unless time passes by itself. If none is due at an
instant, firing the timers only sets the clock.

## Main definitions

* `Session.ArmedFrom`, `Session.Punctual` — no timer should have fired already
* `Session.clockAfter` — the clock after an operation

## Main results

* `Timers.of_nextDeadline?_eq_some` — the earliest deadline is that of an armed timer
* `Session.clock_apply`, `Session.punctual_apply` — what an operation does to the clock and to the
  timers
* `Session.fireTimers_of_late` — if no timer is due, time passes and nothing else happens
-/

namespace Dialogue

namespace Timers

variable {t : Timers} {k : TimerId} {now : Instant} {timer : Timer} {deadline : Instant}

theorem due_eq_nil (late : ∀ k timer, t.armed.get? k = some timer → now < timer.deadline) :
    t.due now = [] :=
  List.eq_nil_iff_forall_not_mem.2 fun ⟨k, timer⟩ due =>
    have ⟨armed, early⟩ := mem_due_iff.1 due
    Nat.not_le_of_lt (late k timer armed) early

/-- If no timer is due, none is taken out. -/
theorem takeDue_eq_self (late : ∀ k timer, t.armed.get? k = some timer → now < timer.deadline) :
    t.takeDue now = ([], t) := by
  have kept : t.armed.filter (fun _ timer => now < timer.deadline) = t.armed := by
    refine Table.ext_get? fun k => Option.ext fun timer => ?_
    rw [Table.get?_filter]
    exact ⟨And.left, fun armed => ⟨armed, decide_eq_true (late k timer armed)⟩⟩
  rw [takeDue, due_eq_nil late, kept]
  rfl

/-! ## The earliest deadline -/

theorem foldr_earlier_eq_none {timers : List Timer} :
    timers.foldr (fun timer rest => earlier timer.deadline rest) .none = .none ↔ timers = [] := by
  cases timers with
  | nil => simp
  | cons timer rest =>
    simp only [List.foldr_cons, reduceCtorEq, iff_false]
    cases rest.foldr (fun timer rest => earlier timer.deadline rest) .none <;> simp [earlier]

theorem of_foldr_earlier_eq_some {timers : List Timer} {deadline : Instant}
    (h : timers.foldr (fun timer rest => earlier timer.deadline rest) .none = some deadline) :
    (∃ timer ∈ timers, timer.deadline = deadline) ∧
      ∀ timer ∈ timers, deadline ≤ timer.deadline := by
  induction timers generalizing deadline with
  | nil => cases h
  | cons timer rest ih =>
    rw [List.foldr_cons] at h
    -- The first timer is compared with the earliest of the others, if there is one.
    cases hrest : rest.foldr (fun timer rest => earlier timer.deadline rest) .none with
    | none =>
      rw [hrest] at h
      obtain rfl := foldr_earlier_eq_none.1 hrest
      obtain rfl := Option.some.inj h
      refine ⟨⟨timer, List.mem_cons_self, rfl⟩, fun other hother => ?_⟩
      obtain rfl := List.mem_singleton.1 hother
      exact Nat.le_refl _
    | some earliest =>
      rw [hrest] at h
      obtain rfl := Option.some.inj h
      obtain ⟨⟨first, hfirst, heq⟩, least⟩ := ih hrest
      split
      · next before =>
        refine ⟨⟨first, List.mem_cons_of_mem _ hfirst, heq⟩, fun other hother => ?_⟩
        rcases List.mem_cons.1 hother with rfl | hother
        · exact Nat.le_of_lt before
        · exact least other hother
      · next before =>
        refine ⟨⟨timer, List.mem_cons_self, rfl⟩, fun other hother => ?_⟩
        rcases List.mem_cons.1 hother with rfl | hother
        · exact Nat.le_refl _
        · exact Nat.le_trans (Nat.le_of_not_lt before) (least other hother)

/-- There is an earliest deadline unless no timer is armed. -/
theorem get?_of_nextDeadline?_eq_none (h : t.nextDeadline? = .none) (k : TimerId) :
    t.armed.get? k = .none := by
  have empty := foldr_earlier_eq_none.1 h
  refine Option.eq_none_iff_forall_ne_some.2 fun timer armed => ?_
  have mem := Table.mem_values.2 ⟨k, armed⟩
  rw [empty] at mem
  cases mem

/-- The earliest deadline is that of an armed timer, and no armed timer has an earlier one. -/
theorem of_nextDeadline?_eq_some (h : t.nextDeadline? = some deadline) :
    (∃ k timer, t.armed.get? k = some timer ∧ timer.deadline = deadline) ∧
      ∀ k timer, t.armed.get? k = some timer → deadline ≤ timer.deadline := by
  obtain ⟨⟨timer, mem, heq⟩, least⟩ := of_foldr_earlier_eq_some h
  obtain ⟨k, armed⟩ := Table.mem_values.1 mem
  exact ⟨⟨k, timer, armed, heq⟩, fun k timer armed => least timer (Table.mem_values.2 ⟨k, armed⟩)⟩

end Timers

namespace Instant

variable {s t u v : Instant} {d e : Duration}

theorem le_of_add? (h : t.add? d = some u) : t ≤ u := by
  show t.nanos ≤ u.nanos
  rw [nanos_of_add? h]
  exact Nat.le_add_right ..

/-- Two durations one after the other are their sum. -/
theorem add?_of_sum (h : t.add? d = some u) (h' : t.add? ⟨d.nanos + e.nanos⟩ = some v) :
    u.add? e = some v := by
  unfold add? at h h' ⊢
  split at h'
  · next bound =>
    split at h
    · obtain rfl := Option.some.inj h
      rw [← h', if_pos (by simpa [Nat.add_assoc] using bound), Nat.add_assoc]
    · cases h
  · cases h'

theorem max_eq_left (h : t ≤ s) : s.max t = s := by
  unfold max
  split
  · next h' => exact le_antisymm h h'
  · rfl

theorem max_max_of_le (h : t ≤ u) : (s.max t).max u = s.max u := by
  unfold max
  by_cases h' : s ≤ t
  · have both : s ≤ u := Nat.le_trans h' h
    rw [if_pos h', if_pos h, if_pos both]
  · rw [if_neg h']

end Instant

/-! ## Deadlines that are not past -/

/-- No timer is armed that should have fired before an instant. -/
def Session.ArmedFrom (t : Instant) (s : Session) : Prop :=
  ∀ k timer, s.timers.armed.get? k = some timer → t ≤ timer.deadline

theorem Session.ArmedFrom.of_loses {t : Instant} {s s' : Session} (h : s.ArmedFrom t)
    (timers : s.timers.Loses s'.timers) : s'.ArmedFrom t := fun k timer armed =>
  h k timer (timers.armed k timer armed)

namespace Cascade

variable {c c' : Cascade} {id : InstanceId} {w : Wait} {t : Instant}

theorem Removes.loses_timers (h : Removes c c') : c.timers.Loses c'.timers := by
  induction h with
  | refl => exact .refl _
  | tail _ last ih =>
    obtain ⟨id, e⟩ := last
    exact ih.trans e.loses_timers

/-- Only suspensions arm timers. -/
theorem Change.loses_timers (h : c.Change c') : c.timers.Loses c'.timers := by
  cases h with
  | begin h _ => exact (spawn_frame h).2.2.2.1 ▸ .refl _
  | prune h => exact h.removes.loses_timers
  | _ => exact .refl _

theorem Passes.loses_timers (h : c.Passes c') : c.timers.Loses c'.timers := by
  cases h with
  | change h => exact h.loses_timers
  | aside h => exact h.timers
  | close _ _ _ _ _ _ timers => exact timers

theorem Passes.clock_le (h : c.Passes c') : c.clock ≤ c'.clock := by
  cases h with
  | change h => exact h.clock ▸ Nat.le_refl _
  | aside h => exact h.clock
  | close _ _ _ _ _ _ _ clock => exact clock ▸ Nat.le_refl _

theorem Wakes.loses_timers (h : c.Wakes id w c') : c.timers.Loses c'.timers := by
  obtain ⟨-⟩ := h
  exact c.loses_timersWithout w.timer

/-- The timer of a suspension is set to a time after the clock. -/
theorem Suspends.armedFrom (h : c.Suspends id w c') (le : t ≤ c.clock)
    (hc : c.toSession.ArmedFrom t) : c'.toSession.ArmedFrom t := by
  obtain ⟨-, -, -, -, timer, -⟩ := h
  rcases timer with ⟨-, rfl⟩ | ⟨deadline, -, rfl, -, after, -, -, hadd⟩
  · exact hc
  · intro k timer armed
    rw [Timers.arm, Table.get?_insert] at armed
    split at armed
    · obtain rfl := Option.some.inj armed
      have sum := Instant.nanos_of_add? hadd
      exact Nat.le_trans le (sum ▸ Nat.le_add_right ..)
    · exact hc k timer armed

end Cascade

/-- From an instant on that the clock has reached, no timer is armed for a time before it. -/
theorem Path.armedFrom {c c' : Cascade} {ms : List Moment} {t : Instant}
    (h : Path Cascade.Passes c ms c') (le : t ≤ c.clock) (hc : c.toSession.ArmedFrom t) :
    c'.toSession.ArmedFrom t :=
  (h.induct (P := fun d => t ≤ d.clock ∧ d.toSession.ArmedFrom t) ⟨le, hc⟩
    (fun _ _ h hp => ⟨Nat.le_trans hp.1 h.clock_le, hp.2.of_loses h.loses_timers⟩)
    (fun _ _ _ _ h hp => ⟨h.clock ▸ hp.1, h.armedFrom hp.1 hp.2⟩)
    fun _ _ _ _ h hp => ⟨h.clock ▸ hp.1, hp.2.of_loses h.loses_timers⟩).2

namespace Session

variable {s : Session} {o : Operation} {t now : Instant}

/-- No armed timer should have fired already. -/
def Punctual (s : Session) : Prop := s.ArmedFrom s.clock

theorem punctual_new (name : String) (library : FlowLibrary) (limits : Limits) (context : Params) :
    (new name library limits context).Punctual := fun _ _ h => by cases h

/-! ## The clock of an operation -/

/-- The clock after an operation. It goes on only when timers fire, or by itself. -/
def clockAfter (s : Session) : Operation → Instant
  | .fireTimers now =>
    match s.checkOpen with
    | .ok () => s.clock.max now
    | .error _ => s.clock
  | .elapse now => s.clock.max now
  | _ => s.clock

/-- The clock when a turn begins to deliver events is the one at its end. -/
theorem clock_turn? (hs : s.Sound) {ms : List Moment} {c : Cascade}
    (h : s.turn? o = some (ms, c)) : c.clock = s.clockAfter o := by
  have isOpen := checkOpen_of_turn? h
  cases begins_of_turn? h with
  | start launched => exact (Cascade.path_launchAll hs launched).clock
  | startFlow launched => exact (Cascade.path_launch hs launched).clock
  | submit e => rfl
  | completeCall call result =>
    show (s.completing call result).clock = s.clock
    unfold completing
    dsimp only
    split <;> rfl
  | fireTimers now => simpa [clockAfter, isOpen] using (s.firing_spec now).2.2.2
  | abort id reason =>
    exact Path.clock (.of_changes (Cascade.changes_terminate hs id _ true))

/-- Among the operations that are no turns, the clock goes on only when time passes by itself. -/
theorem clock_idle (s : Session) (still : ∀ now, o ≠ .elapse now) :
    (s.idle o).clock = s.clock := by
  cases o with
  | close reason =>
    show (s.close reason).clock = s.clock
    unfold close
    split <;> rfl
  | elapse now => exact absurd rfl (still now)
  | _ => rfl

theorem clock_apply (hs : s.Sound) (o : Operation) : (s.apply o).clock = s.clockAfter o := by
  rw [apply_eq]
  cases h : s.turn? o with
  | none =>
    cases o with
    | fireTimers now =>
      unfold turn? at h
      split at h
      · next closed => simp [idle, clockAfter, closed]
      · cases h
    | elapse now => rfl
    | _ => exact clock_idle s (by simp)
  | some t =>
    have hc := (path_turn? hs h).passes_sound hs
    exact (Cascade.clock_run hc).trans (clock_turn? hs h)

/-- When timers fire, none is left that should have fired before. -/
theorem armedFrom_firing (h : s.Punctual) (now : Instant) :
    (s.firing now).toSession.ArmedFrom (s.clock.max now) := by
  intro k timer armed
  rw [(s.firing_spec now).2.1] at armed
  obtain ⟨before, late⟩ := Timers.get?_takeDue.1 armed
  unfold Instant.max
  split
  · exact Nat.le_of_lt late
  · exact h k timer before

theorem punctual_turn? (hs : s.Sound) (h : s.Punctual) {ms : List Moment} {c : Cascade}
    (turn : s.turn? o = some (ms, c)) : c.toSession.Punctual := by
  have clock := clock_turn? hs turn
  have path := (path_turn? hs turn).armedFrom (Nat.le_refl _) h
  cases begins_of_turn? turn with
  | fireTimers now =>
    have fired := armedFrom_firing h now
    rwa [← (s.firing_spec now).2.2.2] at fired
  | _ =>
    -- No time has passed.
    unfold Punctual
    rw [clock]
    exact path

/-- No operation leaves a timer armed that should have fired already, as long as no time passes by
itself. -/
theorem punctual_apply (hs : s.Sound) (h : s.Punctual) {o : Operation}
    (still : ∀ now, o ≠ .elapse now) : (s.apply o).Punctual := by
  rw [apply_eq]
  cases turn : s.turn? o with
  | none =>
    unfold Punctual
    rw [clock_idle s still]
    exact (Path.single (s.passes_idle o)).armedFrom (Nat.le_refl _) h
  | some t =>
    have hc := (path_turn? hs turn).passes_sound hs
    have kept := (Cascade.path_run hc).armedFrom (Nat.le_refl _) (punctual_turn? hs h turn)
    unfold Punctual
    rw [Cascade.clock_run hc]
    exact kept

/-! ## Time that passes -/

theorem tick_eq_self (h : t ≤ s.clock) : s.tick t = s := by
  rw [tick, Instant.max_eq_left h]

/-- It does not matter when the clock has been looked at before timers fire. -/
theorem fireTimers_tick (h : t ≤ now) : (s.tick t).fireTimers now = s.fireTimers now := by
  have same : (s.tick t).tick now = s.tick now := by
    simp only [tick, Instant.max_max_of_le h]
  unfold fireTimers
  rw [same]
  rfl

theorem checkOpen_of_fireTimers {p : Turn × Session} (h : s.fireTimers now = .ok p) :
    s.checkOpen = .ok () := by
  cases isOpen : s.checkOpen with
  | ok u => rfl
  | error e =>
    rw [fireTimers_of_closed isOpen] at h
    cases h

/-- If no timer is due, nothing happens but that time passes. -/
theorem fireTimers_of_late (isOpen : s.checkOpen = .ok ())
    (late : ∀ k timer, s.timers.armed.get? k = some timer → now < timer.deadline) :
    s.fireTimers now = .ok (⟨[], [], s.instances.isEmpty, none⟩, s.tick now) := by
  have quiet : s.firing now = (s.tick now).openCascade := by
    have none : (s.tick now).timers.takeDue now = ([], s.timers) := Timers.takeDue_eq_self late
    unfold firing
    dsimp only
    rw [none]
    rfl
  have settled : (s.tick now).openCascade.settle = (s.tick now).openCascade :=
    Cascade.settle_eq_self rfl
  have fault : s.fault = none := by
    unfold checkOpen at isOpen
    split at isOpen
    · cases isOpen
    · assumption
  rw [fireTimers_eq isOpen, quiet, Cascade.run, settled, ← fault]
  unfold Cascade.drain
  rfl

end Session

end Dialogue
