import Dialogue.Proofs.Session.Announcement
import Dialogue.Proofs.Session.Lasting

/-!
# Lost wake-ups

An instance that awaits a flow or an action is meant to go on, or to fail, in the turn in which the
flow has ended or the result has come in. The event that tells of it is addressed to the instance,
so it takes the event whatever others make of it. But what an instance makes of an event is up to
the first of its arms that accepts it. If that is an arm with a pattern, which stands in front of
the one that the event is meant for, the instance only competes for the event. If it loses, nothing
tells it again: it keeps waiting for something that is over.

This is the only way in which a wake-up is lost. Everything that is not live or not pending any more
is announced, and every announcement is delivered unless the session has to be discarded.

## Main definitions

* `Cascade.Overlooks` — an instance loses the event that tells of one of its arms
* `Moment.Overlooked` — that has happened in the course of a history

## Main results

* `Cascade.tellsExcept_deliver` — what a delivery loses has been overlooked
* `Session.stands_iff_not_overlooked` — an instance waits in vain for what it has overlooked, and
  for nothing else
* `Session.child_overlooked` — an instance that waits in vain
-/

namespace Dialogue

open Relation (ReflTransGen)

namespace Cascade

variable {c c' : Cascade} {id : InstanceId} {E : InstanceId → Armed → Prop}

/-- A suspended instance overlooks at a delivery that what one of its arms waits for has come to its
end. The event tells so, but the pattern of an arm in front of that one matches it too. So the
instance competes for the event instead of taking it, and only others succeed. -/
structure Overlooks (c : Cascade) (e : Event) (id : InstanceId) (a : Armed) : Prop where
  told : a.IsToldBy e
  lost : ¬ c.toSession.Stands id a
  competes : ∃ i w n claim, c.instances.get? id = some i ∧ i.wait? = some w ∧
    w.arms[n]? = some a ∧ claim.index < n ∧ w.arms[claim.index]? = some .event ∧
      i.candidate? e (c.scope i) = .ok (some (.claim claim))
  beaten : ∀ claim ∈ winners (c.claims e), claim.id ≠ id

/-! ## Deliveries -/

/-- Of one instance no arm is lost as long as it waits. -/
theorem lasts_tellsExcept (id : InstanceId) (E : InstanceId → Armed → Prop) :
    Lasts id (fun c => c.toSession.Sound) fun c => c.TellsExcept fun k a => k ≠ id ∨ E k a where
  sound _ hs := hs
  path _ _ _ path hs := ⟨path.sound hs, path.tellsExcept hs⟩
  awake c _ awake := by
    intro k w a hw _
    refine .inr (.inr (.inl ?_))
    rintro rfl
    rw [awake] at hw
    cases hw

/-- A suspended instance that is told that an arm is lost fails, or takes the event, or overlooks
it. -/
theorem told_cases (hs : c.toSession.Sound) {e : Event} {w : Wait} {a : Armed}
    (hw : c.toSession.waitOf? id = some w) (ha : a ∈ w.arms) (told : a.IsToldBy e)
    (lost : ¬ c.toSession.Stands id a) :
    (∃ b ∈ c.broken e, b.1 = id) ∨ (∃ r ∈ c.consumers e, r.1 = id) ∨ c.Overlooks e id a := by
  obtain ⟨i, hi, hwait⟩ := Option.bind_eq_some_iff.1 hw
  obtain rfl := hs.id_eq hi
  have candidate : (i.id, i.candidate? e (c.scope i)) ∈ c.candidates e := by
    refine List.mem_map.2 ⟨i, List.mem_filter.2 ⟨Table.mem_values.2 ⟨_, hi⟩, ?_⟩, rfl⟩
    simp [Instance.isWaiting, hwait]
  have fits := (hs.wait hi hwait).fits
  obtain ⟨n, hn⟩ := List.mem_iff_getElem?.1 ha
  rcases Instance.candidate?_cases hwait fits hn told (c.scope i) with
    ⟨err, hc⟩ | ⟨r, hc⟩ | ⟨claim, hc, behind, front⟩
  · exact .inl ⟨(i.id, err), List.mem_filterMap.2 ⟨_, candidate, by rw [hc]⟩, rfl⟩
  · exact .inr (.inl ⟨(i.id, r), List.mem_filterMap.2 ⟨_, candidate, by rw [hc]⟩, rfl⟩)
  -- A claim that wins makes the instance one of those that take the event.
  · by_cases wins : (winners (c.claims e)).any fun v => v.id = i.id
    · exact .inr (.inl ⟨(i.id, .arm claim.index claim.arm claim.bindings),
        List.mem_filterMap.2 ⟨_, candidate, by simp only [hc, wins, if_true]⟩, rfl⟩)
    · refine .inr (.inr ⟨told, lost, ⟨i, w, n, claim, hi, hwait, hn, behind, front, hc⟩, ?_⟩)
      exact fun v hv heq => wins (List.any_eq_true.2 ⟨v, hv, by simpa using heq⟩)

/-- A delivery loses no arm that the event does not tell of, and of the others only those that are
overlooked. -/
theorem tellsExcept_deliver (hs : c.toSession.Sound) (e : Event)
    (h : c.TellsExcept fun id a => a.IsToldBy e ∨ E id a) :
    (c.deliver e).TellsExcept fun id a => c.Overlooks e id a ∨ E id a := by
  -- The instances are looked at one by one.
  suffices seen : ∀ id, (c.deliver e).TellsExcept fun k a => k ≠ id ∨ c.Overlooks e k a ∨ E k a from
    fun id w a hw ha => (seen id id w a hw ha).imp_right (Or.imp_right fun he => he.resolve_left
      fun hne => hne rfl)
  intro id
  refine (lasts_tellsExcept id _).deliver hs e ?_
  by_cases concerned : (∃ b ∈ c.broken e, b.1 = id) ∨ ∃ r ∈ c.consumers e, r.1 = id
  · exact concerned.imp_right .inl
  refine .inr (.inr fun k w a hw ha => ?_)
  by_cases hk : k = id
  · subst hk
    by_cases stands : c.toSession.Stands k a
    · exact .inl stands
    -- Whatever does not stand before the delivery is announced by another event, or this event
    -- tells of it, or it has been an exception before.
    rcases (h k w a hw ha).resolve_left stands with announced | told | except
    · exact .inr (.inl announced)
    · have overlooked := (or_assoc.2 (told_cases hs hw ha told stands)).resolve_left concerned
      exact .inr (.inr (.inr (.inl overlooked)))
    · exact .inr (.inr (.inr (.inr except)))
  · exact .inr (.inr (.inl hk))

end Cascade

/-! ## Turns -/

/-- An arm has been overlooked at one of the moments. -/
def Moment.Overlooked (ms : List Moment) (id : InstanceId) (a : Armed) : Prop :=
  ∃ e c, .delivered e c ∈ ms ∧ c.Overlooks e id a

theorem Session.StandsExcept.mono {s : Session} {E F : InstanceId → Armed → Prop}
    (h : s.StandsExcept E) (sub : ∀ id a, E id a → F id a) : s.StandsExcept F :=
  fun id w a hw ha => (h id w a hw ha).imp_right (sub id a)

namespace Cascade

variable {c c' : Cascade} {E : InstanceId → Armed → Prop}

/-- A turn that comes to its end delivers every announcement. -/
theorem standsExcept_drain : ∀ (budget : Nat) {c : Cascade} {E : InstanceId → Armed → Prop},
    c.toSession.Sound → c.TellsExcept E → c.produced = #[] → (drain budget c).fault = none →
      (drain budget c).toSession.StandsExcept fun id a =>
        Moment.Overlooked (drainHistory budget c) id a ∨ E id a
  | budget, c, E, hs, h, produced, fault => by
    unfold drainHistory
    unfold drain at fault ⊢
    cases hq : c.queue with
    | nil =>
      -- Nothing is queued or gathered any more, so nothing is announced.
      refine h.mono fun id a he => .inr (he.resolve_left ?_)
      rintro ⟨e, -, announced⟩
      simp [hq, produced] at announced
    | cons e rest =>
      rw [hq] at fault
      cases budget with
      -- A turn that is broken off leaves a fault.
      | zero => cases fault
      | succ budget =>
        let c₁ : Cascade := { c with queue := rest }
        -- The event that leaves the queue announces nothing any more, but it is told now.
        have popped : c₁.TellsExcept fun id a => a.IsToldBy e ∨ E id a := by
          refine h.mono fun id a he => ?_
          rcases he with ⟨e', told, announced⟩ | he
          · rw [hq, List.mem_cons, or_assoc] at announced
            rcases announced with rfl | announced
            · exact .inr (.inl told)
            · exact .inl ⟨e', told, announced⟩
          · exact .inr (.inr he)
        have delivered := tellsExcept_deliver (c := c₁) hs e popped
        have settled := keeps_settle (c₁.deliver e)
        have hs₂ := (Passes.aside (aside_settle (c₁.deliver e))).sound
          ((path_deliver (c := c₁) hs e).sound hs)
        have drained := standsExcept_drain budget hs₂ (settled.1.tellsExcept delivered) settled.2
          fault
        refine drained.mono fun id a he => ?_
        rcases he with ⟨e', d, hd, overlooks⟩ | overlooks | he
        · exact .inl ⟨e', d, List.mem_append_right _ hd, overlooks⟩
        · exact .inl ⟨e, c₁, List.mem_append_left _ List.mem_cons_self, overlooks⟩
        · exact .inr he

theorem standsExcept_run (hs : c.toSession.Sound) (h : c.TellsExcept E)
    (fault : c.run.2.fault = none) :
    c.run.2.StandsExcept fun id a => Moment.Overlooked c.runHistory id a ∨ E id a := by
  rw [run_session] at fault ⊢
  have settled := keeps_settle c
  exact standsExcept_drain _ ((Passes.aside (aside_settle c)).sound hs) (settled.1.tellsExcept h)
    settled.2 fault

theorem keeps_enqueue (c : Cascade) (e : Event) : c.Keeps (c.enqueue e) :=
  have queue : ∀ e' ∈ c.queue, e' ∈ (c.enqueue e).queue := fun _ h => List.mem_append_left _ h
  ⟨fun _ _ h => h, fun _ _ _ _ h => .inl h, fun _ => announces_mono queue fun _ h => h⟩

theorem keeps_foldl_enqueue {α : Type} (event : α → Event) (as : List α) (c : Cascade) :
    c.Keeps (as.foldl (fun c a => c.enqueue (event a)) c) := by
  induction as generalizing c with
  | nil => exact .refl c
  | cons a rest ih => exact (c.keeps_enqueue (event a)).trans (ih _)

end Cascade

/-! ## Operations -/

namespace Session

variable {s s' : Session} {E : InstanceId → Armed → Prop}

theorem not_announces_openCascade (s : Session) (a : Armed) : ¬ s.openCascade.Announces a := by
  rintro ⟨e, -, he⟩
  simp [openCascade] at he

/-- The result of a call that somebody waits for is announced. -/
theorem announces_completing {call : CallId} {pending : Call}
    (hk : s.calls.pending.get? call = some pending) (alive : pending.isCancelled = false)
    (result : Except ActionError Value) : (s.completing call result).Announces (.call call) := by
  have delivered : (s.calls.complete call).1 = .deliver pending.owner pending.action := by
    simp [Calls.complete, hk, alive]
  refine ⟨(resultEvent call pending.action result).stamped (s.sequenced + 1),
    Armed.IsToldBy.stamped ?_ _, .inl ?_⟩
  · cases result with
    | ok v =>
      refine ⟨Event.carries_of_parameter? ?_, .inl rfl⟩
      simp [resultEvent, Event.of, Event.new, Event.parameter?, Table.ofList, Table.get?_insert]
    | error e =>
      refine ⟨Event.carries_of_parameter? ?_, .inr rfl⟩
      simp [resultEvent, Event.of, Event.new, Event.parameter?, Table.ofList, Table.get?_insert]
  · simp only [completing, delivered]
    exact List.mem_append_right _ List.mem_cons_self

/-- A result that comes in loses no arm. -/
theorem keeps_completing (s : Session) (call : CallId) (result : Except ActionError Value) :
    s.openCascade.Keeps (s.completing call result) := by
  have instances := (s.aside_completing call result).instances
  have calls : (s.completing call result).calls = (s.calls.complete call).2 := by
    unfold completing
    dsimp only
    split <;> rfl
  refine ⟨fun id w hw => ?_, fun id w a _ ha => ?_,
    fun a ha => (s.not_announces_openCascade a ha).elim⟩
  · rwa [waitOf?, instances] at hw
  cases a with
  | event => exact .inl trivial
  | child k =>
    obtain ⟨i, hi, hp⟩ := ha
    exact .inl ⟨i, instances ▸ hi, hp⟩
  | call k =>
    obtain ⟨pending, hk, owned, alive⟩ := ha
    -- The call whose result has come in is not pending any more, but the result is queued.
    by_cases hcall : k = call
    · exact .inr (hcall ▸ announces_completing hk alive result)
    · refine .inl ⟨pending, ?_, owned, alive⟩
      rw [calls]
      exact (Calls.get?_complete_of_ne hcall).trans hk

theorem tellsExcept_turn? (hs : s.Sound) (h : s.StandsExcept E) {o : Operation}
    {ms : List Moment} {c : Cascade} (ht : s.turn? o = some (ms, c)) : c.TellsExcept E := by
  have opened : s.openCascade.TellsExcept E := h.mono fun _ _ => .inr
  cases begins_of_turn? ht with
  | @start flows c launched =>
    have tells : c.TellsExcept E := (Cascade.path_launchAll hs launched).tellsExcept hs opened
    exact tells
  | startFlow launched => exact (Cascade.path_launch hs launched).tellsExcept hs opened
  | submit e => exact (s.openCascade.keeps_enqueue e).tellsExcept opened
  | completeCall call result => exact (s.keeps_completing call result).tellsExcept opened
  | fireTimers now => exact (Cascade.keeps_foldl_enqueue _ _ _).tellsExcept opened
  | abort id reason =>
    exact (Path.of_changes (Cascade.changes_terminate hs id _ true)).tellsExcept hs opened

/-- An operation that is no turn loses no arm. -/
theorem standsExcept_idle (h : s.StandsExcept E) (o : Operation) : (s.idle o).StandsExcept E := by
  cases o with
  | close reason =>
    show (s.close reason).StandsExcept E
    unfold close
    split
    · exact h
    · intro id w a hw
      cases hw
  | _ => exact h

theorem standsExcept_apply (hs : s.Sound) (h : s.StandsExcept E) {o : Operation}
    (fault : (s.apply o).fault = none) :
    (s.apply o).StandsExcept fun id a => Moment.Overlooked (s.history o) id a ∨ E id a := by
  rw [apply_eq] at fault ⊢
  unfold history
  cases ht : s.turn? o with
  | none => exact (standsExcept_idle h o).mono fun _ _ => .inr
  | some t =>
    obtain ⟨ms, c⟩ := t
    rw [ht] at fault
    have begun := (path_turn? hs ht).passes_sound hs
    have ran := Cascade.standsExcept_run begun (tellsExcept_turn? hs h ht) fault
    refine ran.mono fun id a he => he.imp_left ?_
    rintro ⟨e, d, hd, overlooks⟩
    exact ⟨e, d, List.mem_append_right _ hd, overlooks⟩

theorem standsExcept_applyAll (hs : s.Sound) (h : s.StandsExcept E) {os : List Operation}
    (fault : (s.applyAll os).fault = none) :
    (s.applyAll os).StandsExcept fun id a => Moment.Overlooked (s.historyOf os) id a ∨ E id a := by
  induction os generalizing s E with
  | nil => exact h.mono fun _ _ => .inr
  | cons o rest ih =>
    have first := standsExcept_apply hs h (fault_of_applyAll fault)
    refine (ih (sound_apply hs o) first fault).mono fun id a he => ?_
    rcases he with ⟨e, d, hd, overlooks⟩ | ⟨e, d, hd, overlooks⟩ | he
    · exact .inl ⟨e, d, List.mem_append_right _ hd, overlooks⟩
    · exact .inl ⟨e, d, List.mem_append_left _ hd, overlooks⟩
    · exact .inr he

/-! ## What has been lost -/

/-- What stands has stood before. -/
theorem Later.stands (l : s.Later s') {id : InstanceId} {a : Armed} (issued : a.IsIssued s)
    (h : s'.Stands id a) : s.Stands id a := by
  cases a with
  | event => trivial
  | child k =>
    obtain ⟨i', hi', hp⟩ := h
    obtain ⟨i, hi, -, -, older, -⟩ := l.instances k i' issued hi'
    exact ⟨i, hi, older id hp⟩
  | call k =>
    obtain ⟨call', hk', owned, alive⟩ := h
    obtain ⟨call, hk, owner, cancelled⟩ := l.calls.pending k call' issued hk'
    refine ⟨call, hk, owner.symm.trans owned, ?_⟩
    rw [← Bool.not_eq_true]
    intro hc
    rw [cancelled hc] at alive
    cases alive

/-- What has been overlooked does not come any more. -/
theorem not_stands_of_overlooked {s : Session} (hs : s.Sound) {os : List Operation}
    {id : InstanceId} {a : Armed} (h : Moment.Overlooked (s.historyOf os) id a) :
    ¬ (s.applyAll os).Stands id a := by
  obtain ⟨e, d, hd, overlooks⟩ := h
  obtain ⟨pre, post, split⟩ := List.append_of_mem hd
  obtain ⟨d₁, d₂, before, happens, after⟩ := (path_historyOf hs os).at_moment split
  cases happens
  obtain ⟨i, w, n, -, hi, hwait, ha, -⟩ := overlooks.competes
  -- What has been armed had been issued by then, so it does not come up later.
  have issued := ((before.passes_sound hs).wait hi hwait).issued a (List.mem_of_getElem? ha)
  exact fun stands => overlooks.lost (after.passes_later.stands issued stands)

/-- After every run that has come to its end, a suspended instance waits in vain for exactly those
arms of which it has overlooked that they have come to their end. -/
theorem stands_iff_not_overlooked (name : String) (library : FlowLibrary) (limits : Limits)
    (context : Params) (os : List Operation) :
    let s := (new name library limits context).applyAll os
    s.fault = none → ∀ id w a, s.waitOf? id = some w → a ∈ w.arms →
      (s.Stands id a ↔
        ¬ Moment.Overlooked ((new name library limits context).historyOf os) id a) := by
  intro s fault id w a hw ha
  have sound := sound_new name library limits context
  refine ⟨fun stands overlooked => not_stands_of_overlooked sound overlooked stands,
    fun attentive => ?_⟩
  have none : (new name library limits context).StandsExcept fun _ _ => False :=
    fun id w a hw => by cases hw
  have run := standsExcept_applyAll sound none fault
  exact (run id w a hw ha).resolve_right fun h => h.elim attentive False.elim

/-- A flow that waits for the result of an action. -/
def askingLibrary : FlowLibrary where
  flows := Table.ofList [("asker", ⟨⟨"asker", [], "", [.execute "lookup" ∅ none none]⟩,
    ⟨#[.select ⟨[⟨.action "lookup" ∅ none, 1, none⟩], none, none⟩, .finish]⟩⟩)]
  vocabulary := Vocabulary.standard

/-- While the result has not come in, the flow does not wait in vain. -/
theorem stands_iff_not_overlooked_asking :
    let s₀ := new "session" askingLibrary .standard ∅
    let s := s₀.applyAll [.start ["asker"], .takeRequests]
    s.fault = none ∧ s.waitOf? ⟨1⟩ = some ⟨0, [.call ⟨1⟩], none⟩ ∧
      (s.Stands ⟨1⟩ (.call ⟨1⟩) ↔
        ¬ Moment.Overlooked (s₀.historyOf [.start ["asker"], .takeRequests]) ⟨1⟩ (.call ⟨1⟩)) := by
  intro s₀ s
  have fault : s.fault = none := Option.isNone_iff_eq_none.1 (by decide +kernel)
  have waits : s.waitOf? ⟨1⟩ = some ⟨0, [.call ⟨1⟩], none⟩ := by decide +kernel
  exact ⟨fault, waits, stands_iff_not_overlooked "session" askingLibrary .standard ∅ _ fault ⟨1⟩ _ _
    waits List.mem_cons_self⟩

/-- A flow that waits for the end of any flow or of one that it awaits, next to another flow that
listens for the end of the latter. -/
def overlookingFlows : List FlowDefinition :=
  [⟨"child", [], "", [.expect ⟨EventName.userSaid, ∅, ∅, false⟩]⟩,
    ⟨"listener", [], "", [.loop [.expect ⟨EventName.flowFinished,
      Table.ofList [("flow", .literal (.string "child"))], ∅, false⟩]]⟩,
    ⟨"waiter", [], "", [.alternative
      [[.expect ⟨EventName.flowFinished, ∅, ∅, false⟩], [.await "child" ∅ none]],
      .send EventName.botSay (Table.ofList [("text", .literal (.string "done"))])]⟩]

/-- The flow that is awaited comes to its end. The listener is more specific, so it takes the event
alone, and the other flow waits in vain from then on. -/
theorem child_overlooked :
    ∃ library, FlowLibrary.ofDefinitions Vocabulary.standard overlookingFlows = .ok library ∧
      let s := (new "session" library .standard ∅).applyAll
        [.start ["listener", "waiter"], .submit (.userSaid "x")]
      s.fault = none ∧ s.isClosed = false ∧
        s.waitOf? ⟨2⟩ = some ⟨0, [.event, .child ⟨3⟩], none⟩ ∧ ¬ s.Stands ⟨2⟩ (.child ⟨3⟩) := by
  -- The whole run is computed at once, together with the compilation of the flows.
  have run : (FlowLibrary.ofDefinitions Vocabulary.standard overlookingFlows).toOption.any
      (fun library =>
        let s := (new "session" library .standard ∅).applyAll
          [.start ["listener", "waiter"], .submit (.userSaid "x")]
        s.fault.isNone && !s.isClosed && s.waitOf? ⟨2⟩ = some ⟨0, [.event, .child ⟨3⟩], none⟩ &&
          (s.instances.get? ⟨3⟩).isNone) = true := by decide +kernel
  obtain ⟨library, loaded, run⟩ := exists_of_toOption_any run
  simp only [Bool.and_eq_true, decide_eq_true_eq, Option.isNone_iff_eq_none,
    Bool.not_eq_true'] at run
  obtain ⟨⟨⟨fault, isOpen⟩, waits⟩, gone⟩ := run
  refine ⟨library, loaded, fault, isOpen, waits, ?_⟩
  rintro ⟨i, hi, -⟩
  rw [gone] at hi
  cases hi

end Session

end Dialogue
