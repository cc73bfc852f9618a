import Dialogue.Proofs.Session.Suspension

/-!
# Timers and waits

A timer is armed when an instance is suspended at a `select` with a timeout, and it belongs to that
wait alone. Whenever the wait comes to its end, because an arm is resolved, or time is up, or the
instance is ended, its timer is out. So an armed timer always belongs to a wait that is still going
on, and its deadline is as far after the beginning of the wait as the timeout says.

## Main definitions

* `Session.Timed` — armed timers belong to waits, each to one
* `Session.timeoutOf?` — the timeout of the `select` at which an instance is suspended
* `Moment.Expires` — the deadline of a wait, as a history tells of it

## Main results

* `Path.passes_timed` — that is so at any time
* `Path.exists_suspended` — every wait has begun with a moment of the history
* `Path.exists_timer` — the deadline of an armed timer is that of its wait
-/

namespace Dialogue

open Relation (ReflTransGen)

/-- Every armed timer is that of the wait of its owner, and no two waits have a timer in common. -/
structure Session.Timed (s : Session) : Prop where
  owned : ∀ k t, s.timers.armed.get? k = some t →
    ∃ w, s.waitOf? t.owner = some w ∧ w.timer = some k
  apart : ∀ id id' w w' k, s.waitOf? id = some w → s.waitOf? id' = some w' →
    w.timer = some k → w'.timer = some k → id = id'

/-- Waits may come to their end as long as their timers are out then. -/
theorem Session.Timed.of_frame {s s' : Session} (h : s.Timed)
    (waits : ∀ id w, s'.waitOf? id = some w → s.waitOf? id = some w)
    (timers : s.timers.Loses s'.timers)
    (disarmed : ∀ id w k, s.waitOf? id = some w → w.timer = some k →
      s'.waitOf? id = some w ∨ s'.timers.armed.get? k = none) : s'.Timed where
  owned k t hk := by
    obtain ⟨w, hw, htimer⟩ := h.owned k t (timers.armed k t hk)
    refine ⟨w, (disarmed _ w k hw htimer).resolve_right fun out => ?_, htimer⟩
    rw [hk] at out
    cases out
  apart id id' w w' k hw hw' := h.apart id id' w w' k (waits id w hw) (waits id' w' hw')

namespace Cascade

variable {c c' : Cascade} {id : InstanceId} {w : Wait} {k : TimerId}

/-! ## Changes -/

theorem get?_timersWithout_self (c : Cascade) : (c.timersWithout (some k)).armed.get? k = none := by
  simp [timersWithout, Timers.cancel, Table.get?_erase]

theorem get?_timersWithout_of_ne {timer : Option TimerId} (h : timer ≠ some k) :
    (c.timersWithout timer).armed.get? k = c.timers.armed.get? k := by
  cases timer with
  | none => rfl
  | some k' =>
    have other : k ≠ k' := fun heq => h (heq ▸ rfl)
    simp [timersWithout, Timers.cancel, Table.get?_erase, other]

/-- The end of an instance leaves the waits of the others. -/
theorem Ends.waitOf?_of_ne {k : InstanceId} (h : c.Ends id c') (hk : k ≠ id) :
    c'.toSession.waitOf? k = c.toSession.waitOf? k := by
  cases hi : c.instances.get? k with
  | none => rw [Session.waitOf?, Session.waitOf?, hi, h.survivors.gone hi]
  | some i =>
    obtain ⟨i', hi'⟩ := Option.isSome_iff_exists.1 (h.spared k hk (by rw [hi]; rfl))
    obtain ⟨i₀, hi₀, left⟩ := h.survivors k i' hi'
    obtain rfl := Option.some.inj (hi.symm.trans hi₀)
    simp only [Session.waitOf?, hi, hi', Option.bind_some, Instance.wait?, left.phase]

theorem Ends.timed (h : c.Ends id c') (hc : c.toSession.Timed) : c'.toSession.Timed := by
  obtain ⟨i, hi, timers⟩ := h.timers
  refine hc.of_frame (fun _ _ => h.survivors.waitOf?_of) h.loses_timers fun k w t hw ht => ?_
  by_cases hk : k = id
  · subst hk
    have hwait : i.wait? = some w := by simpa [Session.waitOf?, hi] using hw
    rw [timers, hwait, Option.bind_some, ht]
    exact .inr (get?_timersWithout_self c)
  · exact .inl ((h.waitOf?_of_ne hk).trans hw)

/-- The end of an instance leaves the timers of the others armed. -/
theorem Ends.get?_timers (h : c.Ends id c') (hc : c.toSession.Timed) {k : InstanceId}
    (hw : c'.toSession.waitOf? k = some w) {t : TimerId} (ht : w.timer = some t) :
    c'.timers.armed.get? t = c.timers.armed.get? t := by
  obtain ⟨i, hi, timers⟩ := h.timers
  rw [timers]
  refine get?_timersWithout_of_ne fun same => ?_
  obtain ⟨w', hwait, ht'⟩ := Option.bind_eq_some_iff.1 same
  have hw' : c.toSession.waitOf? id = some w' := by simp [Session.waitOf?, hi, hwait]
  -- The instance that has ended does not wait, so it is another one.
  obtain rfl := hc.apart k id w w' t (h.survivors.waitOf?_of hw) hw' ht ht'
  rw [Session.waitOf?, h.gone] at hw
  cases hw

theorem Removes.timed (h : Removes c c') (hc : c.toSession.Timed) : c'.toSession.Timed := by
  induction h with
  | refl => exact hc
  | tail _ last ih =>
    obtain ⟨id, e⟩ := last
    exact e.timed ih

theorem Removes.get?_timers (h : Removes c c') (hc : c.toSession.Timed)
    (hw : c'.toSession.waitOf? id = some w) (ht : w.timer = some k) :
    c'.timers.armed.get? k = c.timers.armed.get? k := by
  induction h with
  | refl => rfl
  | @tail d _ first last ih =>
    obtain ⟨id', e⟩ := last
    exact (e.get?_timers (Removes.timed first hc) hw ht).trans (ih (e.survivors.waitOf?_of hw))

theorem Change.timed (h : c.Change c') (hs : c.toSession.Sound) (hc : c.toSession.Timed) :
    c'.toSession.Timed := by
  rcases h.waits_or_removes hs with ⟨timers, waits⟩ | removes
  · exact hc.of_frame (fun _ _ => h.waitOf?_of) (timers ▸ .refl _)
      fun id w _ hw _ => .inl (waits id w hw)
  · exact removes.timed hc

/-- A change leaves the timers of all that wait. -/
theorem Change.get?_timers (h : c.Change c') (hs : c.toSession.Sound) (hc : c.toSession.Timed)
    (hw : c'.toSession.waitOf? id = some w) (ht : w.timer = some k) :
    c'.timers.armed.get? k = c.timers.armed.get? k := by
  rcases h.waits_or_removes hs with ⟨timers, -⟩ | removes
  · rw [timers]
  · exact removes.get?_timers hc hw ht

/-- Whoever is suspended runs until then. -/
theorem Suspends.awake (h : c.Suspends id w c') : c.toSession.waitOf? id = none := by
  obtain ⟨live, running, -⟩ := h
  rw [Session.waitOf?, live, Option.bind_some, Instance.wait?_of_running running]

/-- A suspension arms the timer of the wait, if it has one, and leaves the others as they are. -/
theorem Suspends.get?_timers (h : c.Suspends id w c') (k : TimerId) :
    w.timer = some k ∧ k.number = c.timers.issued + 1 ∧ (∃ deadline,
      c'.timers.armed.get? k = some ⟨deadline, id⟩) ∨
        w.timer ≠ some k ∧ c'.timers.armed.get? k = c.timers.armed.get? k := by
  obtain ⟨-, -, -, -, timer, -⟩ := h
  rcases timer with ⟨hnone, rfl⟩ | ⟨deadline, hsome, rfl, -⟩
  · exact .inr ⟨by simp [hnone], rfl⟩
  · by_cases hk : k = ⟨c.timers.issued + 1⟩
    · subst hk
      exact .inl ⟨hsome, rfl, deadline, Table.get?_insert_self ..⟩
    · refine .inr ⟨fun h => hk (Option.some.inj (h.symm.trans hsome)), ?_⟩
      exact Table.get?_insert_of_ne hk

/-- The timer of a wait is a new one. -/
theorem Suspends.issued (h : c.Suspends id w c') (ht : w.timer = some k) :
    k.number = c.timers.issued + 1 ∧ c'.timers.issued = c.timers.issued + 1 := by
  obtain ⟨-, -, -, -, timer, -⟩ := h
  rcases timer with ⟨hnone, -⟩ | ⟨deadline, hsome, rfl, -⟩
  · rw [hnone] at ht
    cases ht
  · obtain rfl := Option.some.inj (hsome.symm.trans ht)
    exact ⟨rfl, rfl⟩

theorem Suspends.timed (h : c.Suspends id w c') (hs : c.toSession.Sound)
    (hc : c.toSession.Timed) : c'.toSession.Timed := by
  -- The timers of other waits have been given before.
  have older : ∀ k' w' t, k' ≠ id → c'.toSession.waitOf? k' = some w' → w'.timer = some t →
      w.timer ≠ some t := by
    intro k' w' t hk hw ht same
    rw [h.waitOf?_of_ne hk] at hw
    obtain ⟨i, hi, hwait⟩ := Option.bind_eq_some_iff.1 hw
    have issued := (hs.wait hi hwait).timer t ht
    rcases h.get?_timers t with ⟨-, new, -⟩ | ⟨other, -⟩
    · exact Nat.not_succ_le_self _ (new ▸ issued)
    · exact other same
  refine ⟨fun k t hk => ?_, fun k k' w₁ w₂ t hw₁ hw₂ ht₁ ht₂ => ?_⟩
  · rcases h.get?_timers k with ⟨htimer, -, deadline, harmed⟩ | ⟨-, unchanged⟩
    · obtain rfl := Option.some.inj (hk.symm.trans harmed)
      exact ⟨w, h.waitOf?_self, htimer⟩
    · obtain ⟨w', hw', ht'⟩ := hc.owned k t (unchanged ▸ hk)
      refine ⟨w', (h.waitOf?_of_ne fun heq => ?_).trans hw', ht'⟩
      rw [heq, h.awake] at hw'
      cases hw'
  · by_cases hk : k = id
    · by_cases hk' : k' = id
      · rw [hk, hk']
      · subst hk
        obtain rfl := Option.some.inj (h.waitOf?_self.symm.trans hw₁)
        exact absurd ht₁ (older k' w₂ t hk' hw₂ ht₂)
    · by_cases hk' : k' = id
      · subst hk'
        obtain rfl := Option.some.inj (h.waitOf?_self.symm.trans hw₂)
        exact absurd ht₂ (older k w₁ t hk hw₁ ht₁)
      · rw [h.waitOf?_of_ne hk] at hw₁
        rw [h.waitOf?_of_ne hk'] at hw₂
        exact hc.apart k k' w₁ w₂ t hw₁ hw₂ ht₁ ht₂

/-- A waking takes out the timer of the wait, and leaves those of other waits as they are. -/
theorem Wakes.get?_timers (h : c.Wakes id w c') (k : TimerId) :
    c'.timers.armed.get? k = if w.timer = some k then none else c.timers.armed.get? k := by
  obtain ⟨-⟩ := h
  split
  · next htimer => rw [htimer]; exact get?_timersWithout_self c
  · next htimer => exact get?_timersWithout_of_ne htimer

theorem Wakes.waitOf?_of {k : InstanceId} {w' : Wait} (h : c.Wakes id w c')
    (hw : c'.toSession.waitOf? k = some w') : k ≠ id ∧ c.toSession.waitOf? k = some w' := by
  have other : k ≠ id := by
    rintro rfl
    rw [h.waitOf?_self.2] at hw
    cases hw
  exact ⟨other, (h.waitOf?_of_ne other).symm.trans hw⟩

theorem Wakes.timed (h : c.Wakes id w c') (hc : c.toSession.Timed) : c'.toSession.Timed := by
  have loses : c.timers.Loses c'.timers := by
    obtain ⟨-⟩ := h
    exact c.loses_timersWithout w.timer
  refine hc.of_frame (fun _ _ hw => (h.waitOf?_of hw).2) loses fun k w' t hw ht => ?_
  by_cases hk : k = id
  · subst hk
    obtain rfl := Option.some.inj (h.waitOf?_self.1.symm.trans hw)
    exact .inr (by rw [h.get?_timers, if_pos ht])
  · exact .inl ((h.waitOf?_of_ne hk).trans hw)

theorem Passes.timed (h : c.Passes c') (hs : c.toSession.Sound) (hc : c.toSession.Timed) :
    c'.toSession.Timed := by
  cases h with
  | change h => exact h.timed hs hc
  | aside h =>
    have same : ∀ id, c'.toSession.waitOf? id = c.toSession.waitOf? id := fun id => by
      rw [Session.waitOf?, Session.waitOf?, h.instances]
    exact hc.of_frame (fun id w hw => same id ▸ hw) h.timers fun id w _ hw _ =>
      .inl ((same id).trans hw)
  | close instances _ _ _ _ _ timers _ _ noTimers =>
    refine hc.of_frame (fun id w hw => ?_) timers fun id w k _ _ => .inr (by rw [noTimers]; rfl)
    rw [Session.waitOf?, instances] at hw
    cases hw

end Cascade

/-! ## Deadlines -/

/-- The timeout of the `select` at which an instance is suspended. -/
def Session.timeoutOf? (s : Session) (id : InstanceId) : Option Duration :=
  ((s.instances.get? id).bind Instance.select?).bind Select.timeout

namespace Cascade

variable {c c' : Cascade} {id : InstanceId} {w : Wait}

/-- The timer of a wait at a `select` with a timeout is set when the wait begins. -/
theorem Suspends.exists_timer (h : c.Suspends id w c') {after : Duration}
    (hafter : c'.toSession.timeoutOf? id = some after) :
    ∃ k deadline, w.timer = some k ∧ c'.clock.add? after = some deadline ∧
      c'.timers.armed.get? k = some ⟨deadline, id⟩ := by
  obtain ⟨live, running, fits, stands, timer, -⟩ := h
  obtain ⟨s, hsel, -, timed⟩ := fits.select
  have timeout : s.timeout = some after := by
    simpa [Session.timeoutOf?, Instance.select?, Instance.wait?, fits.place, hsel] using hafter
  rcases timer with ⟨hnone, -⟩ | ⟨deadline, hsome, rfl, s', after', hsel', htimeout, hadd⟩
  · simp [hnone, timeout] at timed
  · obtain rfl : s = s' := by simpa using hsel.symm.trans hsel'
    obtain rfl := Option.some.inj (timeout.symm.trans htimeout)
    exact ⟨_, deadline, hsome, hadd, Table.get?_insert_self ..⟩

end Cascade

namespace Path

variable {c c' : Cascade} {ms : List Moment} {id : InstanceId} {w : Wait}

theorem passes_timed (h : Path Cascade.Passes c ms c') (hs : c.toSession.Sound)
    (hc : c.toSession.Timed) : c'.toSession.Timed :=
  h.induct_of_sound hs hc (fun _ _ h => h.sound) (fun _ _ h => h.timed)
    (fun _ _ _ _ h => h.timed) fun _ _ _ _ h _ => h.timed

/-- Time does not go back. -/
theorem passes_clock (h : Path Cascade.Passes c ms c') : c.clock ≤ c'.clock := by
  refine h.induct (P := fun d => c.clock ≤ d.clock) (Nat.le_refl _) (fun d d' h le => ?_)
    (fun _ _ _ _ h le => h.clock ▸ le) fun _ _ _ _ h le => h.clock ▸ le
  cases h with
  | change h => exact h.clock ▸ le
  | aside h => exact Nat.le_trans le h.clock
  | close _ _ _ _ _ _ _ clock => exact clock ▸ le

/-- Whoever is suspended has been so from the beginning, or since a moment of the history. -/
theorem exists_suspended (h : Path Cascade.Passes c ms c')
    (hw : c'.toSession.waitOf? id = some w) :
    (c.toSession.waitOf? id = some w ∧ ∀ m ∈ ms, m.suspends id = false ∧ m.wakes id = false) ∨
      ∃ pre state post, ms = pre ++ .suspended id w state :: post ∧
        ∀ m ∈ post, m.suspends id = false ∧ m.wakes id = false := by
  induction h with
  | nil => exact .inl ⟨hw, by simp⟩
  | change h _ ih => exact (ih hw).imp_left fun ⟨hw, free⟩ => ⟨h.waitOf?_of hw, free⟩
  | @moment _ _ _ m ms happens _ ih =>
    -- Either the path tells of a suspension after this moment, or the wait has lasted since then.
    rcases ih hw with ⟨hw₁, free⟩ | ⟨pre, state, post, rfl, free⟩
    · cases happens with
      | @suspended _ _ k w' h =>
        by_cases hk : k = id
        · subst hk
          obtain rfl := Option.some.inj (h.waitOf?_self.symm.trans hw₁)
          exact .inr ⟨[], _, ms, rfl, free⟩
        · rw [h.waitOf?_of_ne (Ne.symm hk)] at hw₁
          exact .inl ⟨hw₁, List.forall_mem_cons.2
            ⟨by simp [Moment.suspends, Moment.wakes, hk], free⟩⟩
      | @woken _ _ _ k _ _ _ h giving =>
        obtain ⟨other, hw₂⟩ := h.waitOf?_of (Cascade.waitOf?_of_passes giving hw₁)
        exact .inl ⟨hw₂, List.forall_mem_cons.2
          ⟨by simp [Moment.suspends, Moment.wakes, Ne.symm other], free⟩⟩
      | delivered =>
        exact .inl ⟨hw₁, List.forall_mem_cons.2 ⟨by simp [Moment.suspends, Moment.wakes], free⟩⟩
    · exact .inr ⟨m :: pre, state, post, rfl, free⟩

/-- Whoever is suspended at a `select` with a timeout has been so from the beginning, or its timer
was set at a moment of the history. -/
theorem exists_timer (h : Path Cascade.Passes c ms c') (hs : c.toSession.Sound)
    (hw : c'.toSession.waitOf? id = some w) {after : Duration}
    (hafter : c'.toSession.timeoutOf? id = some after) :
    (c.toSession.waitOf? id = some w ∧ ∀ m ∈ ms, m.suspends id = false ∧ m.wakes id = false) ∨
      ∃ pre state post k deadline, ms = pre ++ .suspended id w state :: post ∧
        (∀ m ∈ post, m.suspends id = false ∧ m.wakes id = false) ∧ w.timer = some k ∧
          state.clock.add? after = some deadline ∧ c.clock ≤ state.clock ∧
            state.clock ≤ c'.clock ∧
              ∀ t, c'.timers.armed.get? k = some t → t = ⟨deadline, id⟩ := by
  refine (h.exists_suspended hw).imp_right ?_
  rintro ⟨pre, state, post, hm, free⟩
  obtain ⟨d, d', before, happens, rest⟩ := h.at_moment hm
  cases happens with
  | suspended h =>
    have hs₁ := h.sound (before.passes_sound hs)
    obtain ⟨j, hj, hwait⟩ := Option.bind_eq_some_iff.1 h.waitOf?_self
    have hsw := hs₁.wait hj hwait
    have later := rest.passes_later
    -- The instance runs the same flow as then, so it is suspended at the same `select`.
    have same : state.toSession.timeoutOf? id = some after := by
      obtain ⟨i, hi, hwait'⟩ := Option.bind_eq_some_iff.1 hw
      obtain ⟨j', hj', -, -, -, flow⟩ := later.instances id i (hs₁.instances id j hj).begun hi
      obtain rfl := Option.some.inj (hj.symm.trans hj')
      simpa [Session.timeoutOf?, Instance.select?, hi, hj, hwait, hwait', flow] using hafter
    obtain ⟨k, deadline, htimer, hadd, harmed⟩ := h.exists_timer same
    refine ⟨pre, state, post, k, deadline, hm, free, htimer, hadd, ?_, rest.passes_clock,
      fun t ht => ?_⟩
    · exact h.clock ▸ before.passes_clock
    · exact Option.some.inj ((later.timers.armed k t (hsw.timer k htimer) ht).symm.trans harmed)

end Path

end Dialogue
