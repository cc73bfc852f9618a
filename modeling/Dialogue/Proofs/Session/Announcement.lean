import Dialogue.Proofs.Number
import Dialogue.Proofs.Session.Asking
import Dialogue.Proofs.Session.Rest

/-!
# Announcements

The end of an instance and the result of a call are told to everyone by an event, which carries the
identifier of the instance or of the call. From the time at which an instance has ended until that
event is delivered, an arm may wait for an instance that is not live any more; the event is on its
way then, gathered or queued. No change loses an arm in another way: either what it waits for can
still come, or its end is announced.

A suspended instance that is told of the end of what one of its arms waits for does not ignore the
event. It takes the event, or it fails, or it competes for the event because a pattern in front of
that arm matches.

## Main definitions

* `Armed.IsToldBy` — the events that tell of the end of what an arm waits for
* `Cascade.Announces` — such an event is on its way
* `Session.StandsExcept`, `Cascade.TellsExcept` — no arm is lost, with exceptions

## Main results

* `Instance.candidate?_cases` — an event that tells of an arm is not ignored
* `Path.tellsExcept` — no change loses an arm
* `Cascade.keeps_settle` — announcements are heard
-/

namespace Dialogue

open Relation (ReflTransGen)

/-! ## Events that tell of an arm -/

/-- An event tells that what an arm waits for has come to its end. -/
def Armed.IsToldBy (e : Event) : Armed → Prop
  | .event => False
  | .child k => e.carries "instance_id" k.number = true ∧
      (e.name = EventName.flowFinished ∨ e.name = EventName.flowFailed)
  | .call k => e.carries "call_id" k.number = true ∧
      (e.name = EventName.actionFinished ∨ e.name = EventName.actionFailed)

theorem Event.carries_of_parameter? {e : Event} {key : String} {n : Nat}
    (h : e.parameter? key = some (.ofNat n)) : e.carries key n = true := by
  rw [carries, h]
  exact Value.ofNat_beq_self n

/-- The stamp of an event does not matter for what it tells. -/
theorem Armed.IsToldBy.stamped {e : Event} {a : Armed} (h : a.IsToldBy e) (n : Nat) :
    a.IsToldBy (e.stamped n) := by
  cases a <;> exact h

section Candidates

variable {e : Event} {a : Armed} {arm : Arm} {id : InstanceId} {scope : Scope}

/-- An arm takes the events that tell of it. -/
theorem Arm.candidate?_of_isToldBy (kind : arm.lead.IsArmedAs a) (told : a.IsToldBy e)
    (id : InstanceId) (index : Nat) (scope : Scope) :
    ∃ r, arm.candidate? a id index e scope = .ok (some (.addressed r)) := by
  unfold Arm.candidate?
  cases a with
  | event => exact told.elim
  | child k =>
    obtain ⟨carried, name | name⟩ := told
    · simp [carried, name]
    · simp [carried, name, EventName.flowFinished, EventName.flowFailed]
  | call k =>
    cases hlead : arm.lead with
    | event pattern => simp [Lead.IsArmedAs, hlead] at kind
    | flow name args => simp [Lead.IsArmedAs, hlead] at kind
    | action name params result =>
      obtain ⟨carried, name | name⟩ := told
      · simp [carried, name]
      · simp [carried, name, EventName.actionFinished, EventName.actionFailed]

/-- Only a pattern claims an event, for its own instance. -/
theorem Arm.armed_of_claim {index : Nat} {claim : Claim}
    (h : arm.candidate? a id index e scope = .ok (some (.claim claim))) :
    a = .event ∧ claim.index = index ∧ claim.id = id := by
  cases makes_candidate? h with
  | claims => exact ⟨rfl, rfl, rfl⟩

/-- What the arms make of an event that tells of one of them. -/
theorem firstCandidate?_cases (kind : arm.lead.IsArmedAs a) (told : a.IsToldBy e) :
    ∀ {arms : List (Arm × Armed)} {index n : Nat}, arms[n]? = some (arm, a) →
      (∃ err, firstCandidate? id e scope index arms = .error err) ∨
        (∃ r, firstCandidate? id e scope index arms = .ok (some (.addressed r))) ∨
          ∃ claim m, firstCandidate? id e scope index arms = .ok (some (.claim claim)) ∧
            claim.index = index + m ∧ m < n ∧ arms[m]?.map Prod.snd = some .event
  | [], _, _, h => by simp at h
  | (arm', a') :: rest, index, n, h => by
    unfold firstCandidate?
    cases hc : arm'.candidate? a' id index e scope with
    | error err => exact .inl ⟨err, rfl⟩
    | ok found =>
      cases found with
      | none =>
        cases n with
        | zero =>
          obtain ⟨rfl, rfl⟩ := Prod.mk.inj (Option.some.inj h)
          obtain ⟨r, hr⟩ := Arm.candidate?_of_isToldBy kind told id index scope
          rw [hr] at hc
          cases hc
        | succ n =>
          have more : rest[n]? = some (arm, a) := h
          -- The first arm does not accept the event, so it is up to the others.
          rcases firstCandidate?_cases kind told more with failed | taken |
            ⟨claim, m, hclaim, hindex, hm, harmed⟩
          · exact .inl failed
          · exact .inr (.inl taken)
          · exact .inr (.inr ⟨claim, m + 1, hclaim, by omega, by omega, harmed⟩)
      | some found =>
        cases found with
        | addressed r => exact .inr (.inl ⟨r, rfl⟩)
        | claim claim =>
          obtain ⟨rfl, hindex, -⟩ := Arm.armed_of_claim hc
          refine .inr (.inr ⟨claim, 0, rfl, hindex, ?_, rfl⟩)
          -- No event tells of a pattern, so the arm that it tells of stands further behind.
          cases n with
          | zero =>
            obtain ⟨-, rfl⟩ := Prod.mk.inj (Option.some.inj h)
            exact told.elim
          | succ n => exact Nat.succ_pos n

/-- What is armed belongs to an arm of its kind. -/
theorem exists_zip {arms : List Arm} {armed : List Armed}
    (kinds : List.Forall₂ (fun arm armed => arm.lead.IsArmedAs armed) arms armed) :
    ∀ {n : Nat}, armed[n]? = some a →
      ∃ arm, (arms.zip armed)[n]? = some (arm, a) ∧ arm.lead.IsArmedAs a := by
  induction kinds with
  | nil => exact fun h => by simp at h
  | @cons arm _ _ _ kind _ ih =>
    rintro (_ | n) h
    · obtain rfl := Option.some.inj h
      exact ⟨arm, rfl, kind⟩
    · exact ih h

/-- A suspended instance does not ignore an event that tells of one of its arms. Unless it takes
the event or fails, it competes for the event with a pattern in front of that arm. -/
theorem Instance.candidate?_cases {i : Instance} {w : Wait} {n : Nat} (hw : i.wait? = some w)
    (fits : w.Fits i) (ha : w.arms[n]? = some a) (told : a.IsToldBy e) (scope : Scope) :
    (∃ err, i.candidate? e scope = .error err) ∨
      (∃ r, i.candidate? e scope = .ok (some (.addressed r))) ∨
        ∃ claim, i.candidate? e scope = .ok (some (.claim claim)) ∧ claim.index < n ∧
          w.arms[claim.index]? = some .event := by
  obtain ⟨s, hs, kinds, -⟩ := fits.select
  have selected : i.select? = some s := by simp [select?, hw, fits.place, hs]
  obtain ⟨arm, hzip, kind⟩ := exists_zip kinds ha
  simp only [candidate?, hw, selected]
  -- An event that fires the timer of the wait is taken before any arm is asked.
  split
  · exact .inr (.inl ⟨_, rfl⟩)
  · refine (firstCandidate?_cases kind told hzip).imp_right (Or.imp_right ?_)
    rintro ⟨claim, m, hclaim, hindex, hm, harmed⟩
    rw [Nat.zero_add] at hindex
    subst hindex
    refine ⟨claim, hclaim, hm, ?_⟩
    obtain ⟨⟨arm', _⟩, hfront, rfl⟩ := Option.map_eq_some_iff.1 harmed
    exact (List.getElem?_zip_eq_some.1 hfront).2

end Candidates

/-! ## Arms that stand -/

/-- Every arm of a suspended instance waits for something that can still come, with exceptions. -/
def Session.StandsExcept (s : Session) (E : InstanceId → Armed → Prop) : Prop :=
  ∀ id w a, s.waitOf? id = some w → a ∈ w.arms → s.Stands id a ∨ E id a

/-- An arm stands as long as live instances keep their parents and calls are pending as they
were. -/
theorem Session.Stands.of_frame {s s' : Session} {id : InstanceId} {a : Armed}
    (h : s.Stands id a)
    (instances : ∀ k i, s.instances.get? k = some i →
      ∃ i', s'.instances.get? k = some i' ∧ i'.parent = i.parent)
    (calls : ∀ k call, s.calls.pending.get? k = some call →
      s'.calls.pending.get? k = some call) : s'.Stands id a := by
  cases a with
  | event => trivial
  | child k =>
    obtain ⟨i, hi, hp⟩ := h
    obtain ⟨i', hi', hp'⟩ := instances k i hi
    exact ⟨i', hi', hp'.trans hp⟩
  | call k =>
    obtain ⟨call, hk, owned, alive⟩ := h
    exact ⟨call, calls k call hk, owned, alive⟩

namespace Cascade

variable {c c' c'' : Cascade} {id : InstanceId} {w : Wait} {E F : InstanceId → Armed → Prop}

/-- An event that tells of an arm is queued, or has been gathered as a report of the session, which
is always heard. -/
def Announces (c : Cascade) (a : Armed) : Prop :=
  ∃ e, a.IsToldBy e ∧ (e ∈ c.queue ∨ ⟨none, e⟩ ∈ c.produced)

/-- Every arm of a suspended instance waits for something that can still come, or its end is
announced, with exceptions. -/
def TellsExcept (c : Cascade) (E : InstanceId → Armed → Prop) : Prop :=
  c.toSession.StandsExcept fun id a => c.Announces a ∨ E id a

/-- An arm that is lost is announced, and what is announced remains so. -/
structure Keeps (c c' : Cascade) : Prop where
  waits : ∀ id w, c'.toSession.waitOf? id = some w → c.toSession.waitOf? id = some w
  stands : ∀ id w a, c'.toSession.waitOf? id = some w → c.toSession.Stands id a →
    c'.toSession.Stands id a ∨ c'.Announces a
  announces : ∀ a, c.Announces a → c'.Announces a

theorem Keeps.refl (c : Cascade) : c.Keeps c :=
  ⟨fun _ _ h => h, fun _ _ _ _ h => .inl h, fun _ h => h⟩

theorem Keeps.trans (h : c.Keeps c') (h' : c'.Keeps c'') : c.Keeps c'' where
  waits id w hw := h.waits id w (h'.waits id w hw)
  stands id w a hw ha := by
    rcases h.stands id w a (h'.waits id w hw) ha with ha | ha
    · exact h'.stands id w a hw ha
    · exact .inr (h'.announces a ha)
  announces a ha := h'.announces a (h.announces a ha)

theorem Keeps.tellsExcept (h : c.Keeps c') (hc : c.TellsExcept E) : c'.TellsExcept E := by
  intro id w a hw ha
  rcases hc id w a (h.waits id w hw) ha with ha | ha | ha
  · exact (h.stands id w a hw ha).imp_right .inl
  · exact .inr (.inl (h.announces a ha))
  · exact .inr (.inr ha)

/-! ## No change loses an arm -/

theorem announces_mono (queue : ∀ e ∈ c.queue, e ∈ c'.queue)
    (produced : ∀ p ∈ c.produced, p ∈ c'.produced) {a : Armed} (h : c.Announces a) :
    c'.Announces a := by
  obtain ⟨e, told, he⟩ := h
  exact ⟨e, told, he.imp (queue e) (produced _)⟩

/-- The end of an instance is announced to those who wait for it. -/
theorem Ends.keeps (h : c.Ends id c') : c.Keeps c' := by
  obtain ⟨e, name, number, produced⟩ := h.announced
  have live : ∀ k w, c'.toSession.waitOf? k = some w → ∃ i', c'.instances.get? k = some i' := by
    intro k w hw
    obtain ⟨i', hi', -⟩ := Option.bind_eq_some_iff.1 hw
    exact ⟨i', hi'⟩
  refine ⟨fun _ _ => h.survivors.waitOf?_of, fun k w a hw ha => ?_, fun a => announces_mono ?_ ?_⟩
  · obtain ⟨j, hj⟩ := live k w hw
    cases a with
    | event => exact .inl trivial
    | child child =>
      obtain ⟨i, hi, hp⟩ := ha
      -- If the child is what has ended, that is announced. Any other child keeps its parent, since
      -- the one who waits for it is live.
      by_cases hid : child = id
      · subst hid
        refine .inr ⟨e, ⟨Event.carries_of_parameter? number, name⟩, .inr ?_⟩
        simp [produced]
      · obtain ⟨i', hi'⟩ := Option.isSome_iff_exists.1 (h.spared child hid (by rw [hi]; rfl))
        obtain ⟨i₀, hi₀, left⟩ := h.survivors child i' hi'
        obtain rfl := Option.some.inj (hi.symm.trans hi₀)
        refine .inl ⟨i', hi', (left.parent k hp).resolve_right fun gone => ?_⟩
        rw [hj] at gone
        cases gone.2
    | call call =>
      obtain ⟨pending, hk, owned, alive⟩ := ha
      -- The call is owned by the one who waits for it, who has not ended.
      refine .inl ⟨pending, h.callsOfOthers call pending hk fun ended => ?_, owned, alive⟩
      obtain rfl := owned.symm.trans ended
      rw [h.gone] at hj
      cases hj
  · rw [h.queue]
    exact fun _ h => h
  · rw [produced]
    exact fun p hp => by simp [hp]

theorem Removes.keeps (h : Removes c c') : c.Keeps c' := by
  induction h with
  | refl => exact .refl _
  | tail _ last ih =>
    obtain ⟨id, e⟩ := last
    exact ih.trans e.keeps

/-- An instance that is changed keeps its parent, and so do all others. -/
theorem parent_insert {i i' : Instance} (live : c.instances.get? id = some i)
    (parent : i'.parent = i.parent) (k : InstanceId) (j : Instance)
    (hj : c.instances.get? k = some j) :
    ∃ j', (c.instances.insert id i').get? k = some j' ∧ j'.parent = j.parent := by
  by_cases hk : k = id
  · subst hk
    obtain rfl := Option.some.inj (live.symm.trans hj)
    exact ⟨i', Table.get?_insert_self .., parent⟩
  · exact ⟨j, (Table.get?_insert_of_ne hk ..).trans hj, rfl⟩

theorem Change.keeps (h : c.Change c') (hs : c.toSession.Sound) : c.Keeps c' := by
  have waits : ∀ id w, c'.toSession.waitOf? id = some w → c.toSession.waitOf? id = some w :=
    fun _ _ => h.waitOf?_of
  cases h with
  | note context notices failures kept _ =>
    refine ⟨waits, fun _ _ _ _ ha => .inl (ha.of_frame (fun _ i hi => ⟨i, hi, rfl⟩) fun _ _ h => h),
      fun _ => announces_mono (fun _ h => ?_) kept⟩
    exact h
  | begin h _ =>
    obtain ⟨compiled, depth, rfl, hget, -⟩ := get?_spawn h
    obtain ⟨-, -, -, -, calls, queue, p, produced⟩ := spawn_frame h
    refine ⟨waits, fun _ _ _ _ ha => .inl (ha.of_frame (fun k i hi => ?_) fun k call hk => ?_),
      fun _ => announces_mono ?_ ?_⟩
    · rw [hget, if_neg (Id.ne_next (hs.instances k i hi).begun), hi]
      refine ⟨_, rfl, ?_⟩
      split <;> rfl
    · rwa [calls]
    · rw [queue]
      exact fun _ h => h
    · rw [produced]
      exact fun q hq => by simp [hq]
  | call owner action params =>
    refine ⟨waits, fun _ _ _ _ ha => .inl (ha.of_frame (fun _ i hi => ⟨i, hi, rfl⟩)
      fun k call hk => ?_), fun _ h => h⟩
    rw [Calls.get?_start, if_neg (Id.ne_next (hs.calls k call hk))]
    exact hk
  | @move id i live running pc locals kept =>
    refine ⟨waits, fun _ _ _ _ ha => .inl (ha.of_frame ?_ fun _ _ h => h), fun _ h => h⟩
    exact parent_insert live rfl
  | @cancel k useless =>
    refine ⟨waits, fun id w a hw ha => .inl ?_, fun _ h => h⟩
    cases a with
    | event => trivial
    | child child => exact ha
    | call call =>
      obtain ⟨pending, hk, owned, alive⟩ := ha
      refine ⟨pending, (Calls.get?_cancel_of_ne ?_).trans hk, owned, alive⟩
      -- A call that somebody waits for is of use.
      rintro rfl
      obtain ⟨i, hi, hwait⟩ := Option.bind_eq_some_iff.1 (waits id w hw)
      rw [useless pending hk i (owned ▸ hi)] at hwait
      cases hwait
  | prune h => exact h.removes.keeps

/-- An instance is suspended with all that it waits for still to come. -/
theorem Suspends.tellsExcept (h : c.Suspends id w c') (hc : c.TellsExcept E) :
    c'.TellsExcept E := by
  have frame : ∀ k a, c.toSession.Stands k a → c'.toSession.Stands k a := by
    obtain ⟨live, -⟩ := h
    exact fun k a ha => ha.of_frame (parent_insert live rfl) fun _ _ h => h
  have announces : ∀ a, c.Announces a → c'.Announces a := by
    obtain ⟨-⟩ := h
    exact fun _ h => h
  have stands : ∀ a ∈ w.arms, c.toSession.Stands id a := by
    obtain ⟨-, -, -, stands, -, -⟩ := h
    exact stands
  intro k w' a hw ha
  by_cases hk : k = id
  · subst hk
    obtain rfl := Option.some.inj (h.waitOf?_self.symm.trans hw)
    exact .inl (frame k a (stands a ha))
  · rw [h.waitOf?_of_ne hk] at hw
    exact (hc k w' a hw ha).imp (frame k a) (Or.imp_left (announces a))

theorem Wakes.keeps (h : c.Wakes id w c') : c.Keeps c' := by
  refine ⟨fun k w' hw => ?_, fun k _ a _ ha => ?_, fun a ha => ?_⟩
  · by_cases hk : k = id
    · subst hk
      rw [h.waitOf?_self.2] at hw
      cases hw
    · rwa [h.waitOf?_of_ne hk] at hw
  · obtain ⟨live, -⟩ := h
    exact .inl (ha.of_frame (parent_insert live rfl) fun _ _ h => h)
  · obtain ⟨-⟩ := h
    exact ha

/-! ## Announcements are heard -/

/-- What the session itself reports is kept, whoever is heard, and so is what has been kept before.
Nothing happens to instances, calls and timers, and no time passes. -/
structure Hears (state : Cascade × List Event) (ps : List Produced)
    (state' : Cascade × List Event) : Prop where
  instances : state'.1.instances = state.1.instances
  calls : state'.1.calls = state.1.calls
  timers : state'.1.timers = state.1.timers
  clock : state'.1.clock = state.1.clock
  queue : state'.1.queue = state.1.queue
  produced : state'.1.produced = state.1.produced
  kept : ∀ e ∈ state.2, e ∈ state'.2
  reports : ∀ e, ⟨none, e⟩ ∈ ps → ∃ n, e.stamped n ∈ state'.2

theorem hears_settleOne (winner : Option (InstanceId × Nat)) (state : Cascade × List Event)
    (p : Produced) : Hears state [p] (settleOne winner state p) := by
  obtain ⟨c, kept⟩ := state
  obtain ⟨speaker, event⟩ := p
  unfold settleOne
  dsimp only
  split
  · next id w hbeaten =>
    refine ⟨rfl, rfl, rfl, rfl, rfl, rfl, fun _ h => h, fun e he => ?_⟩
    -- Nobody beats the session itself.
    obtain ⟨rfl, rfl⟩ := Produced.mk.inj (List.mem_singleton.1 he)
    revert hbeaten
    cases c.library.vocabulary.isOutput e.name <;> cases winner <;> exact nofun
  · refine ⟨?_, ?_, ?_, ?_, ?_, ?_, fun e he => List.mem_cons_of_mem _ he, fun e he => ?_⟩
    iterate 6 split <;> rfl
    obtain ⟨rfl, rfl⟩ := Produced.mk.inj (List.mem_singleton.1 he)
    exact ⟨_, List.mem_cons_self⟩

theorem hears_foldl_settleOne (winner : Option (InstanceId × Nat)) (ps : List Produced)
    (state : Cascade × List Event) : Hears state ps (ps.foldl (settleOne winner) state) := by
  induction ps generalizing state with
  | nil => exact ⟨rfl, rfl, rfl, rfl, rfl, rfl, fun _ h => h,
      fun _ h => absurd h List.not_mem_nil⟩
  | cons p rest ih =>
    have first := hears_settleOne winner state p
    have more := ih (settleOne winner state p)
    refine ⟨more.instances.trans first.instances, more.calls.trans first.calls,
      more.timers.trans first.timers, more.clock.trans first.clock,
      more.queue.trans first.queue, more.produced.trans first.produced,
      fun e he => more.kept e (first.kept e he), fun e he => ?_⟩
    rcases List.mem_cons.1 he with rfl | he
    · obtain ⟨n, hn⟩ := first.reports e List.mem_cons_self
      exact ⟨n, more.kept _ hn⟩
    · exact more.reports e he

/-- To settle who is heard leaves the instances, their calls and their timers, and the clock. -/
theorem settle_frame (c : Cascade) : c.settle.instances = c.instances ∧
    c.settle.calls = c.calls ∧ c.settle.timers = c.timers ∧ c.settle.clock = c.clock := by
  have hears := hears_foldl_settleOne
    (heard? ((c.produced.toList.filter fun p =>
      c.library.vocabulary.isOutput p.event.name).filterMap Produced.speaker))
    c.produced.toList ({ c with produced := #[] }, [])
  exact ⟨hears.instances, hears.calls, hears.timers, hears.clock⟩

/-- After it has been settled who is heard, nothing is left gathered, and no arm is lost. -/
theorem keeps_settle (c : Cascade) : c.Keeps c.settle ∧ c.settle.produced = #[] := by
  have hears := hears_foldl_settleOne
    (heard? ((c.produced.toList.filter fun p =>
      c.library.vocabulary.isOutput p.event.name).filterMap Produced.speaker))
    c.produced.toList ({ c with produced := #[] }, [])
  obtain ⟨instances, calls, -⟩ := c.settle_frame
  refine ⟨⟨fun id w hw => ?_, fun id w a _ ha => .inl ?_, fun a ⟨e, told, he⟩ => ?_⟩,
    hears.produced⟩
  · rwa [Session.waitOf?, instances] at hw
  · exact ha.of_frame (fun k i hi => ⟨i, instances ▸ hi, rfl⟩) fun k call hk => calls ▸ hk
  · rcases he with he | he
    · refine ⟨e, told, .inl (List.mem_append_left _ ?_)⟩
      rw [hears.queue]
      exact he
    -- What has been gathered is queued under a number.
    · obtain ⟨n, hn⟩ := hears.reports e (Array.mem_toList_iff.2 he)
      exact ⟨e.stamped n, told.stamped n, .inl (List.mem_append_right _ (List.mem_reverse.2 hn))⟩

end Cascade

/-- No change loses an arm. -/
theorem Path.tellsExcept {c c' : Cascade} {ms : List Moment} {E : InstanceId → Armed → Prop}
    (h : Path Cascade.Change c ms c') (hs : c.toSession.Sound) (hc : c.TellsExcept E) :
    c'.TellsExcept E :=
  h.induct_of_sound hs hc (fun _ _ h => h.sound) (fun _ _ h hs => (h.keeps hs).tellsExcept)
    (fun _ _ _ _ h _ => h.tellsExcept) fun _ _ _ _ h _ => h.keeps.tellsExcept

end Dialogue
