import Dialogue.Proofs.Program.Timeouts
import Dialogue.Proofs.Session.Timeout

/-!
# Time goes on

Whoever drives a session waits for its next deadline, fires the timers that are due, and does so
again. That comes to an end only if every deadline that is left lies after the instant that has been
reached. A timer that was armed before does, or it would have fired; and one that is armed in the
turn itself is set to a later instant, unless its timeout is no time at all. Timeouts of that kind
are accepted, since they are written as positive numbers and rounded afterwards: a flow that waits
for half a nanosecond at most, again and again, fires without end while no time passes.

## Main definitions

* `Session.RunsLibrary` — instances run the flows of the library

## Main results

* `Cascade.clock_run` — no time passes in a turn
* `Session.deadline_le_iff` — which timers are due again after they have fired
* `Session.fireTimers_progress` — those, and when there are none
* `Session.sleeper_restless` — a flow whose timer is always due
-/

namespace Dialogue

/-! ## Flows of the library -/

/-- Every live instance runs a flow of the library. -/
def Session.RunsLibrary (s : Session) : Prop :=
  ∀ id i, s.instances.get? id = some i → ∃ name, s.library.get? name = some i.flow

theorem Session.RunsLibrary.of_flows {s s' : Session} (h : s.RunsLibrary)
    (library : s'.library = s.library)
    (flows : ∀ id i', s'.instances.get? id = some i' →
      ∃ id i, s.instances.get? id = some i ∧ i'.flow = i.flow) : s'.RunsLibrary := by
  intro id i' hi'
  obtain ⟨id, i, hi, same⟩ := flows id i' hi'
  rw [library, same]
  exact h id i hi

namespace Cascade

variable {c c' : Cascade} {id : InstanceId} {w : Wait}

/-- An instance that is changed runs the same flow. -/
theorem flows_insert {i i' : Instance} (live : c.instances.get? id = some i)
    (flow : i'.flow = i.flow) (k : InstanceId) (j' : Instance)
    (hj' : (c.instances.insert id i').get? k = some j') :
    ∃ k j, c.instances.get? k = some j ∧ j'.flow = j.flow := by
  rw [Table.get?_insert] at hj'
  split at hj'
  · obtain rfl := Option.some.inj hj'
    exact ⟨id, i, live, flow⟩
  · exact ⟨k, j', hj', rfl⟩

theorem Change.runsLibrary (h : c.Change c') (hc : c.toSession.RunsLibrary) :
    c'.toSession.RunsLibrary := by
  have library := h.library
  cases h with
  | @begin flow args parent isDetached id c' h _ =>
    obtain ⟨compiled, depth, rfl, hget, hflow⟩ := get?_spawn h
    intro k j hj
    rw [library]
    rw [hget] at hj
    split at hj
    -- The instance that begins runs the flow that it is begun for.
    · obtain rfl := Option.some.inj hj
      exact ⟨flow, hflow⟩
    · obtain ⟨i, hi, rfl⟩ := Option.map_eq_some_iff.1 hj
      obtain ⟨name, known⟩ := hc k i hi
      refine ⟨name, known.trans ?_⟩
      split <;> rfl
  | move live running pc kept => exact hc.of_flows library (flows_insert live rfl)
  | prune h =>
    apply hc.of_flows library
    intro k i' hi'
    obtain ⟨i, hi, left⟩ := h.removes.survivors k i' hi'
    exact ⟨k, i, hi, left.flow⟩
  | _ => exact hc

theorem Suspends.runsLibrary (h : c.Suspends id w c') (hc : c.toSession.RunsLibrary) :
    c'.toSession.RunsLibrary := by
  obtain ⟨live, -⟩ := h
  exact hc.of_flows rfl (flows_insert live rfl)

theorem Wakes.runsLibrary (h : c.Wakes id w c') (hc : c.toSession.RunsLibrary) :
    c'.toSession.RunsLibrary := by
  obtain ⟨live, -⟩ := h
  exact hc.of_flows rfl (flows_insert live rfl)

theorem Passes.runsLibrary (h : c.Passes c') (hc : c.toSession.RunsLibrary) :
    c'.toSession.RunsLibrary := by
  cases h with
  | change h => exact h.runsLibrary hc
  | aside h =>
    apply hc.of_flows h.library
    intro k i hi
    exact ⟨k, i, h.instances ▸ hi, rfl⟩
  | close instances =>
    intro k i hi
    rw [instances] at hi
    cases hi

end Cascade

namespace Path

variable {c c' : Cascade} {ms : List Moment}

theorem passes_runsLibrary (h : Path Cascade.Passes c ms c') (hc : c.toSession.RunsLibrary) :
    c'.toSession.RunsLibrary :=
  h.induct (P := fun c => c.toSession.RunsLibrary) hc (fun _ _ h => h.runsLibrary)
    (fun _ _ _ _ h => h.runsLibrary) fun _ _ _ _ h => h.runsLibrary

theorem passes_library (h : Path Cascade.Passes c ms c') : c'.library = c.library :=
  h.induct (P := fun d => d.library = c.library) rfl (fun _ _ h l => h.library.trans l)
    (fun _ _ _ _ h l => h.library.trans l) fun _ _ _ _ h l => h.library.trans l

/-- No time passes by the changes of a turn. -/
theorem clock (h : Path Cascade.Change c ms c') : c'.clock = c.clock :=
  h.induct (P := fun d => d.clock = c.clock) rfl (fun _ _ h l => h.clock.trans l)
    (fun _ _ _ _ h l => h.clock.trans l) fun _ _ _ _ h l => h.clock.trans l

end Path

/-! ## The clock -/

namespace Cascade

variable {c : Cascade}

theorem clock_drain : ∀ (budget : Nat) {c : Cascade}, c.toSession.Sound →
    (drain budget c).clock = c.clock
  | budget, c, hs => by
    unfold drain
    cases c.queue with
    | nil => rfl
    | cons e rest =>
      cases budget with
      | zero => rfl
      | succ budget =>
        let c₁ : Cascade := { c with queue := rest }
        have delivered := path_deliver (c := c₁) hs e
        have hs₂ := (Passes.aside (aside_settle (c₁.deliver e))).sound (delivered.sound hs)
        calc (drain budget (c₁.deliver e).settle).clock
          _ = (c₁.deliver e).settle.clock := clock_drain budget hs₂
          _ = (c₁.deliver e).clock := (c₁.deliver e).settle_frame.2.2.2
          _ = c.clock := delivered.clock

/-- No time passes in a turn. -/
theorem clock_run (hs : c.toSession.Sound) : c.run.2.clock = c.clock := by
  have settled := (Passes.aside (aside_settle c)).sound hs
  rw [run_session, clock_drain _ settled]
  exact c.settle_frame.2.2.2

end Cascade

namespace Instant

variable {s t u : Instant} {d : Duration}

theorem le_antisymm (h : t ≤ u) (h' : u ≤ t) : t = u := by
  obtain ⟨n⟩ := t
  exact congrArg mk (Nat.le_antisymm h h')

theorem nanos_of_add? (h : t.add? d = some u) : u.nanos = t.nanos + d.nanos := by
  unfold add? at h
  split at h
  · rw [← Option.some.inj h]
  · cases h

/-- What is set to a time after the later one of two instants is due at one of them only if it is
the later one, and if it is set to no time at all. -/
theorem le_iff_of_add?_max (h : (s.max t).add? d = some u) : u ≤ t ↔ s ≤ t ∧ d = ⟨0⟩ := by
  have sum := nanos_of_add? h
  obtain ⟨n⟩ := d
  show u.nanos ≤ t.nanos ↔ s.nanos ≤ t.nanos ∧ (⟨n⟩ : Duration) = ⟨0⟩
  rw [Duration.mk.injEq]
  unfold max at sum
  split at sum
  · next le =>
    have le : s.nanos ≤ t.nanos := le
    dsimp only at sum
    omega
  · next le =>
    have le : ¬ s.nanos ≤ t.nanos := le
    dsimp only at sum
    omega

end Instant

/-! ## Firing timers -/

namespace Session

variable {s s' : Session} {now : Instant} {t : Turn}

/-- The turn in which timers fire. -/
theorem turn_of_fireTimers (h : s.fireTimers now = .ok (t, s')) :
    s.history (.fireTimers now) = (s.firing now).runHistory ∧ (s.firing now).run.2 = s' := by
  have performed : s.perform? (.fireTimers now) = some (t, s') := by
    simp [perform?, h, Except.toOption]
  rw [perform?_eq] at performed
  obtain ⟨⟨ms, c⟩, turn, run⟩ := Option.map_eq_some_iff.1 performed
  rw [history, turn]
  cases begins_of_turn? turn
  exact ⟨rfl, congrArg Prod.snd run⟩

/-- After timers have fired at an instant, those that are due at that instant are the ones that have
been set anew, with a timeout that is no time at all. -/
theorem deadline_le_iff (hs : s.Sound) (ht : s.Timed) (h : s.fireTimers now = .ok (t, s'))
    {k : TimerId} {timer : Timer} (armed : s'.timers.armed.get? k = some timer) :
    timer.deadline ≤ now ↔ s.clock ≤ now ∧ s'.timeoutOf? timer.owner = some ⟨0⟩ ∧
      ∃ m ∈ s.history (.fireTimers now), m.suspends timer.owner = true := by
  obtain ⟨history, rfl⟩ := turn_of_fireTimers h
  rw [history]
  have fired := Cascade.Passes.aside (s.aside_firing now)
  have hc : (s.firing now).Sound := fired.sound hs
  have path := Cascade.path_run (c := s.firing now) hc
  have hs' := path.passes_sound hc
  obtain ⟨w, hw, hk⟩ := (path.passes_timed hc (fired.timed hs ht)).owned k timer armed
  obtain ⟨after, hafter⟩ := exists_timeoutOf? hs' hw hk
  rcases path.exists_timer hc hw hafter with ⟨old, free⟩ | ⟨pre, state, post, k', deadline, hm,
    free, hk', hadd, le, le', only⟩
  -- A timer that has been armed before would have fired.
  · obtain ⟨i, hi, hwait⟩ := Option.bind_eq_some_iff.1 old
    have issued := (hc.wait hi hwait).timer k hk
    have left := path.passes_later.timers.armed k timer issued armed
    rw [(s.firing_spec now).2.1] at left
    have early : now.nanos < timer.deadline.nanos := (Timers.get?_takeDue.1 left).2
    constructor
    · intro late
      exact absurd late (Nat.not_le_of_lt early)
    · rintro ⟨-, -, m, hm, suspended⟩
      rw [(free m hm).1] at suspended
      cases suspended
  · obtain rfl := Option.some.inj (hk.symm.trans hk')
    have heq := only timer armed
    have set : timer.deadline = deadline := congrArg Timer.deadline heq
    -- No time passes in the turn, so the deadline is counted from the instant of the firing.
    have clock : state.clock = s.clock.max now := by
      have start : (s.firing now).clock = s.clock.max now := (s.firing_spec now).2.2.2
      have stop : (s.firing now).run.2.openCascade.clock = (s.firing now).clock :=
        Cascade.clock_run hc
      exact (Instant.le_antisymm (stop ▸ le') le).trans start
    have timeout : (s.firing now).run.2.timeoutOf? timer.owner = some after := hafter
    rw [clock] at hadd
    rw [set, Instant.le_iff_of_add?_max hadd, timeout, Option.some.injEq]
    refine and_congr_right fun _ => ⟨fun zero => ⟨zero, .suspended timer.owner w state, ?_, ?_⟩,
      fun again => again.1⟩
    · rw [hm]
      exact List.mem_append_right _ List.mem_cons_self
    · exact decide_eq_true rfl

/-- A timeout at which an instance is suspended is written in some flow. -/
theorem RunsLibrary.exists_timeout (h : s.RunsLibrary) {vocabulary : Vocabulary}
    {ds : List FlowDefinition}
    (hlib : FlowLibrary.ofDefinitions vocabulary ds = .ok s.library) {id : InstanceId}
    {after : Duration} (hafter : s.timeoutOf? id = some after) :
    ∃ d ∈ ds, ∃ x ∈ Statement.timeoutsIn d.body, Duration.ofSeconds? x = some after := by
  obtain ⟨sel, hsel, timed⟩ := Option.bind_eq_some_iff.1 hafter
  obtain ⟨i, hi, suspended⟩ := Option.bind_eq_some_iff.1 hsel
  obtain ⟨name, hflow⟩ := h id i hi
  obtain ⟨written, compiled⟩ := FlowLibrary.exists_definition hlib hflow
  unfold Instance.select? at suspended
  split at suspended
  · next found =>
    obtain rfl := Option.some.inj suspended
    obtain ⟨w, -, place⟩ := Option.bind_eq_some_iff.1 found
    exact ⟨_, written, FlowDefinition.exists_timeout compiled place timed⟩
  · cases suspended

/-- After timers have fired in whichever run of a library, those that are due again at the instant
are the ones that have been set anew in the turn, with a timeout that is no time at all. If no flow
has a timeout that vanishes, every deadline that is left lies after the instant. -/
theorem fireTimers_progress {vocabulary : Vocabulary} {ds : List FlowDefinition}
    {library : FlowLibrary} (hlib : FlowLibrary.ofDefinitions vocabulary ds = .ok library)
    (name : String) (limits : Limits) (context : Params) (os : List Operation) (now : Instant)
    (t : Turn) (s' : Session) :
    let s := (new name library limits context).applyAll os
    s.fireTimers now = .ok (t, s') → ∀ k timer, s'.timers.armed.get? k = some timer →
      (timer.deadline ≤ now ↔ s.clock ≤ now ∧ s'.timeoutOf? timer.owner = some ⟨0⟩ ∧
        ∃ m ∈ s.history (.fireTimers now), m.suspends timer.owner = true) ∧
      ((∀ d ∈ ds, ∀ x ∈ Statement.timeoutsIn d.body, Duration.vanishes x = false) →
        now < timer.deadline) := by
  intro s h k timer armed
  have hs₀ := sound_new name library limits context
  have path := path_historyOf hs₀ os
  have hs : s.Sound := path.passes_sound hs₀
  have ht : s.Timed := path.passes_timed hs₀ (timed_new name library limits context)
  have again := deadline_le_iff hs ht h armed
  refine ⟨again, fun lasting => Nat.lt_of_not_le fun late => ?_⟩
  obtain ⟨-, nothing, -⟩ := again.1 late
  have applied : s.apply (.fireTimers now) = s' := by simp [apply, h]
  have whole := path.trans (path_history hs (.fireTimers now))
  have runs : s'.RunsLibrary := applied ▸ whole.passes_runsLibrary fun _ _ h => by cases h
  have same : s'.library = library := applied ▸ whole.passes_library
  -- A timer that is due at once has a timeout that vanishes, and that is written in some flow.
  obtain ⟨d, hd, x, hx, zero⟩ := runs.exists_timeout (same ▸ hlib) nothing
  have vanishes := (Duration.ofSeconds?_eq_zero_iff zero).1 rfl
  rw [lasting d hd x hx] at vanishes
  cases vanishes

/-- A flow that waits for a word of the user, again and again, but not longer than the given number
of seconds. -/
def sleepingFlows (seconds : Float) : List FlowDefinition :=
  [⟨"sleeper", [], "",
    [.loop [.waitAny [[.expect ⟨EventName.userSaid, ∅, ∅, false⟩]] (some seconds) []]]⟩]

/-- If it waits for five seconds, the next deadline lies after the one that has come. -/
theorem fireTimers_progress_sleeping :
    ∃ library t s' timer,
      FlowLibrary.ofDefinitions Vocabulary.standard (sleepingFlows 5) = .ok library ∧
        ((new "session" library .standard ∅).applyAll [.start ["sleeper"]]).fireTimers
          ⟨5000000000⟩ = .ok (t, s') ∧
        s'.timers.armed.get? ⟨2⟩ = some timer ∧ (⟨5000000000⟩ : Instant) < timer.deadline := by
  have run : (FlowLibrary.ofDefinitions Vocabulary.standard (sleepingFlows 5)).toOption.any
      (fun library =>
        (((new "session" library .standard ∅).applyAll [.start ["sleeper"]]).fireTimers
          ⟨5000000000⟩).toOption.any fun t => (t.2.timers.armed.get? ⟨2⟩).isSome) = true := by
    decide +kernel
  obtain ⟨library, loaded, run⟩ := exists_of_toOption_any run
  obtain ⟨⟨t, s'⟩, fired, run⟩ := exists_of_toOption_any run
  obtain ⟨timer, armed⟩ := Option.isSome_iff_exists.1 run
  have lasting : ∀ d ∈ sleepingFlows 5, ∀ x ∈ Statement.timeoutsIn d.body,
      Duration.vanishes x = false := by decide +kernel
  have progress := fireTimers_progress loaded "session" .standard ∅ [.start ["sleeper"]]
    ⟨5000000000⟩ t s' fired ⟨2⟩ timer armed
  exact ⟨library, t, s', timer, loaded, fired, armed, progress.2 lasting⟩

/-- A tenth of a nanosecond is accepted as a timeout. But no time passes, so the timer is due again
as soon as it has fired. -/
theorem sleeper_restless :
    ∃ library, FlowLibrary.ofDefinitions Vocabulary.standard (sleepingFlows 1e-10) = .ok library ∧
      ∃ t s', ((new "session" library .standard ∅).applyAll [.start ["sleeper"]]).fireTimers .zero =
          .ok (t, s') ∧
        t.fault = none ∧ s'.fault = none ∧ s'.isClosed = false ∧
          ∃ timer, s'.timers.armed.get? ⟨2⟩ = some timer ∧ ¬ Instant.zero < timer.deadline := by
  have run : (FlowLibrary.ofDefinitions Vocabulary.standard (sleepingFlows 1e-10)).toOption.any
      (fun library =>
        (((new "session" library .standard ∅).applyAll [.start ["sleeper"]]).fireTimers
          .zero).toOption.any fun t => t.1.fault.isNone && t.2.fault.isNone && !t.2.isClosed &&
            (t.2.timers.armed.get? ⟨2⟩).any fun timer => !decide (Instant.zero < timer.deadline)) =
        true := by
    decide +kernel
  obtain ⟨library, loaded, run⟩ := exists_of_toOption_any run
  obtain ⟨⟨t, s'⟩, fired, run⟩ := exists_of_toOption_any run
  simp only [Bool.and_eq_true, Option.isNone_iff_eq_none, Bool.not_eq_true', Option.any_eq_true,
    decide_eq_false_iff_not] at run
  obtain ⟨⟨⟨whole, sane⟩, isOpen⟩, timer, armed, late⟩ := run
  exact ⟨library, loaded, t, s', fired, whole, sane, isOpen, timer, armed, late⟩

end Session

end Dialogue
