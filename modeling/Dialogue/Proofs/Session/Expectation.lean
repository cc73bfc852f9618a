import Dialogue.Proofs.Session.Delivery
import Dialogue.Proofs.Session.Ownership
import Dialogue.Proofs.Session.Suspension
import Dialogue.Proofs.Session.Wakeup

/-!
# Calls that are expected

A call is started for an instance that is about to be suspended, and it is one of the arms of that
wait. As long as its result is of use, the instance keeps waiting for it, since a wait that comes to
its end gives up all of its arms, and an instance that is ended early gives up all of its calls.
Only the arm that has ended the wait is not given up: its call is taken to have had its result by
then. That need not be so. A wait may come to its end because of a call that is still pending, and
then nobody ever expects its result.

In the middle of an instruction calls may have been started for an instance that is not suspended
yet. So the steps of an activation are the smallest changes of which it is said here that they
forget no call.

## Main definitions

* `Session.Expects` — an instance waits for something
* `Moment.Forged` — a wait has come to its end because of a call that is pending
* `Cascade.Minds` — which calls are expected after a history

## Main results

* `Cascade.Changes.expects_iff` — no quiet change forgets a call
* `Cascade.minds_step`, `Cascade.minds_disarm` — what a step forgets, and the end of a wait
* `Session.minds_historyOf` — what a run forgets
-/

namespace Dialogue

/-- An instance is suspended, and one of its arms waits for something. -/
def Session.Expects (s : Session) (id : InstanceId) (a : Armed) : Prop :=
  ∃ w, s.waitOf? id = some w ∧ a ∈ w.arms

theorem Session.Expects.of_waitOf? {s s' : Session} {id : InstanceId} {a : Armed}
    (waits : ∀ w, s.waitOf? id = some w → s'.waitOf? id = some w) (h : s.Expects id a) :
    s'.Expects id a := by
  obtain ⟨w, hw, ha⟩ := h
  exact ⟨w, waits w hw, ha⟩

/-- An instance that is suspended for a call owns the call. -/
theorem Session.Expects.owner_eq {s : Session} (hs : s.Sound) {id owner : InstanceId} {k : CallId}
    (h : s.Expects id (.call k)) (stands : s.Stands owner (.call k)) : owner = id := by
  obtain ⟨w, hw, hk⟩ := h
  obtain ⟨i, hi, hwait⟩ := Option.bind_eq_some_iff.1 hw
  obtain ⟨call, hcall, rfl, -⟩ := stands
  exact ((hs.wait hi hwait).owned k call hk hcall).trans (hs.id_eq hi)

/-- A call that is pending has one owner. -/
theorem Session.Stands.owner_eq {s : Session} {id owner : InstanceId} {k : CallId}
    (h : s.Stands id (.call k)) (h' : s.Stands owner (.call k)) : owner = id := by
  obtain ⟨call, hcall, rfl, -⟩ := h
  obtain ⟨call', hcall', rfl, -⟩ := h'
  obtain rfl := Option.some.inj (hcall.symm.trans hcall')
  rfl

namespace Moment

/-- The wait of an instance comes to its end because of a call, and the call is still pending. -/
def Forges (k : CallId) : Moment → Prop
  | .woken id w (some n) _ before _ =>
    w.arms[n]? = some (.call k) ∧ before.toSession.Stands id (.call k)
  | _ => False

/-- By a history some wait has come to its end because of a call that was still pending. -/
def Forged (ms : List Moment) (k : CallId) : Prop := ∃ m ∈ ms, m.Forges k

theorem not_forged_nil (k : CallId) : ¬ Forged [] k := fun ⟨_, hm, _⟩ => List.not_mem_nil hm

theorem forged_append {ms ms' : List Moment} {k : CallId} :
    Forged (ms ++ ms') k ↔ Forged ms k ∨ Forged ms' k := by
  simp only [Forged, List.mem_append, or_and_right, exists_or]

theorem forged_woken {id : InstanceId} {w : Wait} {kept target : Option Nat}
    {before after : Cascade} {k : CallId} :
    Forged [.woken id w kept target before after] k ↔
      ∃ n, kept = some n ∧ w.arms[n]? = some (.call k) ∧ before.toSession.Stands id (.call k) := by
  cases kept <;> simp [Forged, Forges]

theorem OnlySuspends.not_forged {ms : List Moment} (h : OnlySuspends ms) (k : CallId) :
    ¬ Forged ms k := by
  rintro ⟨m, hm, forges⟩
  cases m with
  | woken => cases (h _ hm).2
  | suspended => exact forges
  | delivered => exact forges

end Moment

namespace Cascade

variable {c c' c'' : Cascade} {id : InstanceId} {i : Instance} {w : Wait} {k : CallId}

/-! ## Quiet changes -/

/-- The end of an instance leaves the calls expected that are still of use. -/
theorem Ends.expects_iff {k : InstanceId} (h : c.Ends k c') {n : CallId}
    (stands : c'.toSession.Stands id (.call n)) :
    c'.toSession.Expects id (.call n) ↔ c.toSession.Expects id (.call n) := by
  refine ⟨fun expects => expects.of_waitOf? fun w hw => h.survivors.waitOf?_of hw, ?_⟩
  rintro ⟨w, hw, hn⟩
  obtain ⟨i, hi, hwait⟩ := Option.bind_eq_some_iff.1 hw
  obtain ⟨call, hcall, owner, alive⟩ := stands
  -- A suspended instance that is ended gives up its calls, so it is another one that ends.
  have other : id ≠ k := by
    rintro rfl
    rw [h.callsOfEnded i n call hi hcall owner alive] at hwait
    cases hwait
  obtain ⟨i', hi'⟩ := Option.isSome_iff_exists.1 (h.spared id other (by rw [hi]; rfl))
  obtain ⟨i₀, hi₀, left⟩ := h.survivors id i' hi'
  obtain rfl := Option.some.inj (hi.symm.trans hi₀)
  have same := (Instance.wait?_congr left.phase).trans hwait
  exact ⟨w, Option.bind_eq_some_iff.2 ⟨i', hi', same⟩, hn⟩

theorem Removes.expects_iff (h : Removes c c') (stands : c'.toSession.Stands id (.call k)) :
    c'.toSession.Expects id (.call k) ↔ c.toSession.Expects id (.call k) := by
  induction h with
  | refl => exact .rfl
  | tail _ last ih =>
    obtain ⟨ended, ends⟩ := last
    exact (ends.expects_iff stands).trans (ih (stands_of_loses ends.calls stands))

theorem Change.expects_iff (h : c.Change c') (hs : c.toSession.Sound)
    (stands : c'.toSession.Stands id (.call k)) :
    c'.toSession.Expects id (.call k) ↔ c.toSession.Expects id (.call k) := by
  rcases h.waits_or_removes hs with ⟨-, waits⟩ | removes
  · exact ⟨fun expects => expects.of_waitOf? fun _ hw => h.waitOf?_of hw,
      fun expects => expects.of_waitOf? (waits id)⟩
  · exact removes.expects_iff stands

/-- Of the calls that there are, changes leave those expected that are still of use. -/
theorem Changes.expects_iff (h : Changes c c') (hs : c.toSession.Sound)
    (issued : k.number ≤ c.calls.issued) (stands : c'.toSession.Stands id (.call k)) :
    c'.toSession.Expects id (.call k) ↔ c.toSession.Expects id (.call k) := by
  induction h with
  | refl => exact .rfl
  | tail first last ih =>
    have later := (Changes.later first).calls.issued
    have before := last.later.stands (a := .call k) (Nat.le_trans issued later) stands
    exact (last.expects_iff (Changes.sound first hs) stands).trans (ih before)

/-! ## Minding calls -/

/-- A history forgets no call and expects no other: of the calls that are still of use at its end
those are expected that were expected before or have been started in its course, except for those
whose wait has come to its end because of them. -/
structure Minds (c : Cascade) (ms : List Moment) (c' : Cascade) : Prop where
  later : c.toSession.Later c'.toSession
  issued : ∀ k, Moment.Forged ms k → k.number ≤ c'.calls.issued
  expects_iff : ∀ id k, c'.toSession.Stands id (.call k) →
    (c'.toSession.Expects id (.call k) ↔ ¬ Moment.Forged ms k ∧
      (c.toSession.Expects id (.call k) ∨ c.calls.issued < k.number))

theorem Minds.trans {ms ms' : List Moment} (h : Minds c ms c') (h' : Minds c' ms' c'') :
    Minds c (ms ++ ms') c'' where
  later := h.later.trans h'.later
  issued k forged := by
    rcases Moment.forged_append.1 forged with forged | forged
    · exact Nat.le_trans (h.issued k forged) h'.later.calls.issued
    · exact h'.issued k forged
  expects_iff id k stands := by
    rw [h'.expects_iff id k stands, Moment.forged_append, not_or]
    by_cases new : c'.calls.issued < k.number
    -- A call that has been started since has not been forged before.
    · have unforged : ¬ Moment.Forged ms k := fun forged =>
        Nat.not_lt_of_le (h.issued k forged) new
      have new₀ : c.calls.issued < k.number := Nat.lt_of_le_of_lt h.later.calls.issued new
      simp [new, new₀, unforged]
    · have before := h'.later.stands (a := .call k) (Nat.le_of_not_lt new) stands
      rw [h.expects_iff id k before]
      simp only [new, or_false]
      rw [and_assoc, and_left_comm]

/-- If no call that is of use has been started, those that still are may be expected as before. -/
theorem Minds.of_old (later : c.toSession.Later c'.toSession)
    (old : ∀ id k, c'.toSession.Stands id (.call k) → k.number ≤ c.calls.issued)
    (expects : ∀ id k, k.number ≤ c.calls.issued → c'.toSession.Stands id (.call k) →
      (c'.toSession.Expects id (.call k) ↔ c.toSession.Expects id (.call k))) :
    Minds c [] c' where
  later
  issued k forged := absurd forged (Moment.not_forged_nil k)
  expects_iff id k stands := by
    rw [expects id k (old id k stands) stands]
    simp [Moment.not_forged_nil, Nat.not_lt_of_le (old id k stands)]

theorem old_of_issued (hs : c'.toSession.Sound) (issued : c'.calls.issued = c.calls.issued)
    (id : InstanceId) (k : CallId) (stands : c'.toSession.Stands id (.call k)) :
    k.number ≤ c.calls.issued := by
  obtain ⟨call, hcall, -⟩ := stands
  exact issued ▸ hs.calls k call hcall

theorem minds_of_changes (h : Changes c c') (hs : c.toSession.Sound)
    (old : ∀ id k, c'.toSession.Stands id (.call k) → k.number ≤ c.calls.issued) : Minds c [] c' :=
  .of_old (Changes.later h) old fun _ _ issued stands => Changes.expects_iff h hs issued stands

theorem minds_of_issued (h : Changes c c') (hs : c.toSession.Sound)
    (issued : c'.calls.issued = c.calls.issued) : Minds c [] c' :=
  minds_of_changes h hs (old_of_issued (Changes.sound h hs) issued)

theorem Minds.refl (hs : c.toSession.Sound) : Minds c [] c := minds_of_issued .refl hs rfl

/-- What else a history tells does not matter. -/
theorem Minds.of_quiet {ms : List Moment} (h : Minds c [] c')
    (quiet : ∀ k, ¬ Moment.Forged ms k) : Minds c ms c' where
  later := h.later
  issued k forged := absurd forged (quiet k)
  expects_iff id k stands := by
    rw [h.expects_iff id k stands]
    simp [Moment.not_forged_nil, quiet k]

theorem Aside.minds (h : c.Aside c') (hs : c.toSession.Sound) : Minds c [] c' := by
  have passes := Passes.aside h
  refine .of_old passes.later (old_of_issued (passes.sound hs) h.calls.issued) fun id k _ _ => ?_
  simp only [Session.Expects, Session.waitOf?, h.instances]

theorem minds_terminate (hs : c.toSession.Sound) (id : InstanceId) (error : FlowError)
    (isReported : Bool) : Minds c [] (c.terminate id error isReported) :=
  minds_of_issued (changes_terminate hs id error isReported) hs
    (loses_terminate hs id error isReported).issued

/-! ## Steps -/

/-- An instance is suspended for calls that have been started for it. -/
theorem Minds.suspends {ms : List Moment} (changes : Changes c c') (s : c'.Suspends id w c'')
    (hs : c.toSession.Sound) (quiet : ∀ k, ¬ Moment.Forged ms k)
    (started : ∀ k : CallId, .call k ∈ w.arms ↔
      c.calls.issued < k.number ∧ k.number ≤ c''.calls.issued) : Minds c ms c'' := by
  have hs' := Changes.sound changes hs
  have hs'' := s.sound hs'
  have self := s.waitOf?_self
  refine ⟨(Changes.later changes).trans s.later, fun k forged => absurd forged (quiet k),
    fun owner k stands => ?_⟩
  simp only [quiet k, not_false_eq_true, true_and]
  by_cases new : c.calls.issued < k.number
  -- A call that has been started is one of those for which the instance is suspended.
  · have issued : k.number ≤ c''.calls.issued := by
      obtain ⟨call, hcall, -⟩ := stands
      exact hs''.calls k call hcall
    have expects : c''.toSession.Expects id (.call k) := ⟨w, self, (started k).2 ⟨new, issued⟩⟩
    rw [expects.owner_eq hs'' stands]
    exact iff_of_true expects (.inr new)
  · simp only [new, or_false]
    have before : c'.toSession.Stands owner (.call k) :=
      s.later.stands (a := .call k)
        (Nat.le_trans (Nat.le_of_not_lt new) (Changes.later changes).calls.issued) stands
    rw [← Changes.expects_iff changes hs (Nat.le_of_not_lt new) before]
    by_cases same : owner = id
    · subst same
      -- The instance was running, and what it is suspended for is new.
      refine iff_of_false ?_ ?_
      · rintro ⟨w', hw', hk⟩
        obtain rfl := Option.some.inj (self.symm.trans hw')
        exact new ((started k).1 hk).1
      · rintro ⟨w', hw', -⟩
        obtain ⟨live, running, -⟩ := s
        rw [Session.waitOf?, live, Option.bind_some, Instance.wait?_of_running running] at hw'
        cases hw'
    · simp only [Session.Expects, s.waitOf?_of_ne same]

/-- A step leaves the calls expected that are still of use, and those that it starts. -/
theorem minds_step (hs : c.toSession.Sound) (hi : c.instances.get? i.id = some i)
    (hr : i.phase = .running) : Minds c (c.stepHistory i) (c.step i).1 := by
  have quiet := (onlySuspends_stepHistory c i).not_forged
  generalize c.stepHistory i = ms at quiet
  unfold step
  split
  · next d children h =>
    have executes := execute_ok hs hi hr (i.flow.get?_or_finish i.pc) h
    rcases executes.outcome with ⟨c₁, w, changes, s⟩ | ⟨changes, awake⟩
    · rcases calls_of_execute_ok hs hi hr h with ⟨w', hw', started⟩ | ⟨-, awake⟩
      · obtain rfl := Option.some.inj (s.waitOf?_self.symm.trans hw')
        exact .suspends changes s hs quiet started
      · have suspended := s.waitOf?_self
        rw [awake] at suspended
        cases suspended
    · rcases calls_of_execute_ok hs hi hr h with ⟨w, suspended, -⟩ | ⟨issued, -⟩
      · rw [awake] at suspended
        cases suspended
      · exact (minds_of_issued changes hs issued).of_quiet quiet
  · next c₁ e h =>
    have changes := (execute_error hs hi hr h).changes
    obtain ⟨live, owned⟩ := calls_of_execute_error hs hi h
    have hs₁ := Changes.sound changes hs
    have ending := changes_terminate hs₁ i.id e true
    refine (minds_of_changes (changes.trans ending) hs fun owner k stands => ?_).of_quiet quiet
    -- What has been started before the failure is given up with the instance.
    by_contra new
    obtain ⟨call, hcall, rfl, -⟩ := stands_of_loses (loses_terminate hs₁ i.id e true) stands
    rw [owned k call hcall (Nat.lt_of_not_le new)] at stands
    exact not_stands_terminate hs₁ live e true stands

/-! ## Activations -/

theorem minds_endRunning (hs : c.toSession.Sound) (error : FlowError) (id : InstanceId) :
    Minds c [] (c.endRunning error id) := by
  unfold endRunning
  split
  · split
    · exact .refl hs
    · exact minds_terminate hs id error false
  · exact .refl hs

theorem minds_exhaust (hs : c.toSession.Sound) (root : InstanceId) (stack : List InstanceId) :
    Minds c [] (c.exhaust root stack) := by
  have ends : ∀ (error : FlowError) (ids : List InstanceId) {c : Cascade}, c.toSession.Sound →
      Minds c [] (ids.foldl (endRunning error) c) := by
    intro error ids
    induction ids with
    | nil => exact fun hs => .refl hs
    | cons id rest ih =>
      intro c hs
      have first := changes_endRunning hs error id
      exact (minds_endRunning hs error id).trans (ih (Changes.sound first hs))
  rw [exhaust_eq]
  have first := changes_terminate hs root (.stepLimit c.limits.activationSteps) true
  exact (minds_terminate hs root _ true).trans (ends _ _ (Changes.sound first hs))

theorem minds_runStack (root : InstanceId) : ∀ (budget : Nat) (stack : List InstanceId)
    {c : Cascade}, c.toSession.Sound →
      Minds c (stackHistory root budget stack c) (runStack root budget stack c)
  | budget, stack, c, hs => by
    unfold stackHistory runStack
    cases h : c.firstRunning? stack with
    | none => exact .refl hs
    | some first =>
      obtain ⟨i, rest⟩ := first
      cases budget with
      | zero => exact minds_exhaust hs root _
      | succ budget =>
        obtain ⟨id, hi, hr, -⟩ := firstRunning?_eq_some h
        obtain rfl := hs.id_eq hi
        exact (minds_step hs hi hr).trans
          (minds_runStack root budget _ ((path_step hs hi hr).sound hs))

theorem minds_activate (hs : c.toSession.Sound) (id : InstanceId) :
    Minds c (c.activateHistory id) (c.activate id) :=
  minds_runStack id _ _ hs

/-! ## The end of a wait -/

/-- At the end of a wait no call is forgotten but the one that it is kept for. -/
theorem minds_disarm (hs : c.toSession.Sound) (hi : c.instances.get? id = some i)
    (hw : i.wait? = some w) (kept target : Option Nat) :
    Minds c [.woken id w kept target c (c.disarm i kept)] (c.disarm i kept) := by
  have d := disarms hs hi hw kept
  have hs' := d.sound hs
  have loses := loses_disarm hs hi hw kept
  obtain ⟨c₁, wakes, changes, -⟩ := d.wakes
  refine ⟨wakes.later.trans (Changes.later changes), fun k forged => ?_, fun owner k stands => ?_⟩
  · obtain ⟨-, -, -, call, hcall, -⟩ := Moment.forged_woken.1 forged
    rw [loses.issued]
    exact hs.calls k call hcall
  · have old := old_of_issued hs' loses.issued owner k stands
    have before := stands_of_loses loses stands
    simp only [Nat.not_lt_of_le old, or_false]
    by_cases same : owner = id
    -- The instance is not suspended any more, and of its calls only the kept one is of use.
    · subst same
      refine iff_of_false ?_ ?_
      · rintro ⟨w', hw', -⟩
        rw [d.awake] at hw'
        cases hw'
      · rintro ⟨unforged, w', hw', hk⟩
        obtain rfl := Option.some.inj (wakes.waitOf?_self.1.symm.trans hw')
        obtain ⟨n, hn⟩ := List.mem_iff_getElem?.1 hk
        have spent := d.lost n _ hn fun kept =>
          unforged (Moment.forged_woken.2 ⟨n, kept, hn, before⟩)
        obtain ⟨call, hcall, -, alive⟩ := stands
        rw [spent.2 call hcall] at alive
        cases alive
    · have unforged : ¬ Moment.Forged [.woken id w kept target c (c.disarm i kept)] k := by
        intro forged
        obtain ⟨-, -, -, own⟩ := Moment.forged_woken.1 forged
        exact same (own.owner_eq before)
      have expects := Changes.expects_iff changes (wakes.sound hs)
        (Nat.le_trans old wakes.later.calls.issued) stands
      rw [expects]
      simp only [Session.Expects, wakes.waitOf?_of_ne same, unforged, not_false_eq_true, true_and]

/-! ## Turns -/

theorem Resumes.minds {r : Resolution} {ms : List Moment} (h : Resumes c id r c' ms)
    (hs : c.toSession.Sound) : Minds c ms c' := by
  cases h with
  | stays => exact .refl hs
  | ends => exact minds_terminate hs id _ true
  | @advances i w r pc bindings hi hw =>
    have d := disarms hs hi hw r.kept?
    have moved := goesOn_relocate (d.sound hs) d.awake pc bindings
    have relocated : Minds (c.disarm i r.kept?) [] ((c.disarm i r.kept?).relocate id pc bindings) :=
      minds_of_issued moved.changes (d.sound hs) rfl
    have advanced := relocated.trans (minds_activate (Changes.sound moved.changes (d.sound hs)) id)
    exact (minds_disarm hs hi hw r.kept? (some pc)).trans advanced
  | fails hi hw =>
    have d := disarms hs hi hw none
    exact (minds_disarm hs hi hw none none).trans (minds_terminate (d.sound hs) id _ true)

theorem minds_foldl_resume (hs : c.toSession.Sound) (rs : List (InstanceId × Resolution)) :
    Minds c
      (foldHistory (fun c r => c.resume r.1 r.2) (fun c r => c.resumeHistory r.1 r.2) c rs)
      (rs.foldl (fun c r => c.resume r.1 r.2) c) := by
  induction rs generalizing c with
  | nil => exact .refl hs
  | cons r rest ih =>
    exact ((resumes c r.1 r.2).minds hs).trans (ih ((path_resume hs r.1 r.2).sound hs))

theorem minds_purge (hs : c.toSession.Sound) (e : Event) : Minds c [] (c.purge e) := by
  unfold purge
  induction c.broken e generalizing c with
  | nil => exact .refl hs
  | cons b rest ih =>
    have first := changes_terminate hs b.1 b.2 true
    exact (minds_terminate hs b.1 b.2 true).trans (ih (Changes.sound first hs))

theorem minds_deliver (hs : c.toSession.Sound) (e : Event) :
    Minds c (c.deliverHistory e) (c.deliver e) := by
  have delivered : Minds c [.delivered e c] c := by
    refine (Minds.refl hs).of_quiet ?_
    rintro k ⟨m, hm, forges⟩
    obtain rfl := List.mem_singleton.1 hm
    exact forges.elim
  have purged := minds_purge hs e
  exact delivered.trans (purged.trans
    (minds_foldl_resume (Changes.sound (changes_purge hs e) hs) (c.consumers e)))

theorem minds_drain : ∀ (budget : Nat) {c : Cascade}, c.toSession.Sound →
    Minds c (drainHistory budget c) (drain budget c)
  | budget, c, hs => by
    unfold drainHistory drain
    cases hq : c.queue with
    | nil => exact .refl hs
    | cons e rest =>
      cases budget with
      | zero => exact (aside_poison c).minds hs
      | succ budget =>
        let c₁ : Cascade := { c with queue := rest }
        have hs' := (path_deliver (c := c₁) hs e).sound hs
        have settled := aside_settle (c₁.deliver e)
        have drained := minds_drain budget ((Passes.aside settled).sound hs')
        exact ((aside_pop c rest).minds hs).trans
          ((minds_deliver (c := c₁) hs e).trans ((settled.minds hs').trans drained))

/-- The rest of a turn forgets no call. -/
theorem minds_run (hs : c.toSession.Sound) : Minds c c.runHistory c.run.2.openCascade := by
  have settled := aside_settle c
  have hs' := (Passes.aside settled).sound hs
  have drained := minds_drain c.limits.cascadeSteps hs'
  have ended : (drain c.limits.cascadeSteps c.settle).Aside c.run.2.openCascade := aside_reopen _
  have whole := (settled.minds hs).trans
    (drained.trans (ended.minds ((path_drain _ hs').passes_sound hs')))
  rwa [List.nil_append, List.append_nil] at whole

theorem minds_launch {flow : String} {args : Params} (hs : c.toSession.Sound)
    (h : c.launch flow args = some (id, c')) : Minds c (c.launchHistory flow args) c' := by
  obtain ⟨⟨k, d⟩, hspawn, heq⟩ := Option.map_eq_some_iff.1 h
  obtain ⟨rfl, rfl⟩ := Prod.mk.inj heq
  rw [launchHistory, hspawn]
  have begun : c.Change d := .begin hspawn fun p hp => by cases hp
  have calls : d.calls = c.calls := (spawn_frame hspawn).2.2.2.2.1
  exact (minds_of_issued (.single begun) hs (congrArg Calls.issued calls)).trans
    (minds_activate (begun.sound hs) k)

theorem minds_launchAll : ∀ {flows : List String} {c c' : Cascade}, c.toSession.Sound →
    launchAll flows c = .ok c' → Minds c (launchAllHistory flows c) c'
  | [], c, c', hs, h => by
    obtain rfl := Except.ok.inj h
    exact .refl hs
  | flow :: rest, c, c', hs, h => by
    unfold launchAll at h
    rw [launchAllHistory]
    cases hl : c.launch flow ∅ with
    | none =>
      rw [hl] at h
      cases h
    | some p =>
      rw [hl] at h
      exact (minds_launch hs hl).trans (minds_launchAll ((path_launch hs hl).sound hs) h)

end Cascade

/-! ## Operations -/

namespace Session

variable {s : Session}

theorem minds_turn? (hs : s.Sound) {o : Operation} {ms : List Moment} {c : Cascade}
    (h : s.turn? o = some (ms, c)) : Cascade.Minds s.openCascade ms c := by
  cases begins_of_turn? h with
  | @start flows c launched =>
    have sound := (Cascade.path_launchAll hs launched).sound hs
    have noted := (c.aside_notify (.sessionOpened flows)).minds sound
    have whole := (Cascade.minds_launchAll hs launched).trans noted
    rwa [List.append_nil] at whole
  | startFlow launched => exact Cascade.minds_launch hs launched
  | submit e => exact (s.openCascade.aside_enqueue e).minds hs
  | completeCall call result => exact (s.aside_completing call result).minds hs
  | fireTimers now => exact (s.aside_firing now).minds hs
  | abort id reason => exact Cascade.minds_terminate hs id _ true

/-- An operation that is no turn forgets no call, unless it forgets all of them. -/
theorem minds_idle (hs : s.Sound) (o : Operation) :
    Cascade.Minds s.openCascade [] (s.idle o).openCascade := by
  cases o with
  | close reason =>
    have later : s.openCascade.toSession.Later (s.close reason) :=
      (s.passes_idle (.close reason)).later
    show Cascade.Minds s.openCascade [] (s.close reason).openCascade
    by_cases closed : s.isClosed = true
    · rw [show s.close reason = s from if_pos closed]
      exact .refl hs
    -- All calls are dropped.
    · have none : ∀ id k, ¬ (s.close reason).Stands id (.call k) := by
        rintro id k ⟨call, hcall, -⟩
        rw [show s.close reason = _ from if_neg closed] at hcall
        cases hcall
      exact .of_old later (fun id k stands => (none id k stands).elim)
        fun id k _ stands => (none id k stands).elim
  | takeRequests => exact s.aside_takeRequests.minds hs
  | takeNotices => exact s.aside_takeNotices.minds hs
  | elapse now => exact (s.aside_elapse now).minds hs
  | _ => exact .refl hs

theorem minds_history (hs : s.Sound) (o : Operation) :
    Cascade.Minds s.openCascade (s.history o) (s.apply o).openCascade := by
  rw [apply_eq, history]
  cases h : s.turn? o with
  | none => exact minds_idle hs o
  | some t =>
    obtain ⟨ms, c⟩ := t
    exact (minds_turn? hs h).trans (Cascade.minds_run ((path_turn? hs h).passes_sound hs))

/-- A run forgets no call, unless the wait for it has come to its end because of it. -/
theorem minds_historyOf (hs : s.Sound) (os : List Operation) :
    Cascade.Minds s.openCascade (s.historyOf os) (s.applyAll os).openCascade := by
  induction os generalizing s with
  | nil => exact .refl hs
  | cons o rest ih => exact (minds_history hs o).trans (ih (sound_apply hs o))

end Session

end Dialogue
