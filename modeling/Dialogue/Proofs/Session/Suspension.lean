import Dialogue.Proofs.Session.Run

/-!
# A wait comes to one end

Several things may be ready to resolve one wait: two timers are due together, two awaited children
end in one step, a match comes together with a timeout. The first of them wakes the instance, and by
then nothing is left that the others could refer to. The instance may be suspended again, even at
the same place and for the same pattern; it is then another wait, and its children, calls and timer
have identifiers of their own.

So suspensions and wakings alternate in the history of an instance. What has been given up at a
waking has ended for good, since no identifier is given twice.

## Main definitions

* `Moment.endings` — the moments at which a wait has come to its end
* `Session.Attached` — the instances that go down with another one
* `Armed.IsOver` — an arm that has been given up, as it is seen later

## Main results

* `Path.alternates` — suspensions and wakings alternate
* `Path.isOver_of_woken` — what a wait has not kept at its end is over from then on
* `Session.suspension_resolves_once` — every wait comes to one end, and all else is given up
-/

namespace Dialogue

open Relation (ReflTransGen)

/-! ## Suspensions and wakings -/

namespace Moment

/-- Whether an instance is suspended. -/
def suspends (id : InstanceId) : Moment → Bool
  | .suspended k _ _ => k = id
  | _ => false

/-- Whether an instance is woken. -/
def wakes (id : InstanceId) : Moment → Bool
  | .woken k _ _ _ _ _ => k = id
  | _ => false

/-- The states that a moment tells of. -/
def states : Moment → List Cascade
  | .suspended _ _ state => [state]
  | .woken _ _ _ _ before after => [before, after]
  | .delivered _ state => [state]

/-- Of the moments after a suspension of an instance, those at which that wait has come to its end:
the instance is woken, and it has not been suspended anew. -/
def endings (id : InstanceId) (after : List Moment) : List Moment :=
  (after.takeWhile fun m => !m.suspends id).filter (wakes id)

/-- Suspensions and wakings of an instance alternate: it is woken from the wait for which it was
suspended last, and only once. -/
def Alternate (id : InstanceId) : Option Wait → List Moment → Prop
  | _, [] => True
  | last, .suspended k w _ :: rest => Alternate id (if k = id then some w else last) rest
  | last, .woken k w _ _ _ _ :: rest =>
    (k = id → last = some w) ∧ Alternate id (if k = id then none else last) rest
  | last, .delivered _ _ :: rest => Alternate id last rest

variable {id : InstanceId}

/-- After a suspension the wait is the last one. -/
theorem Alternate.of_suspended {w : Wait} {state : Cascade} {post : List Moment} :
    ∀ (pre : List Moment) {last : Option Wait},
      Alternate id last (pre ++ .suspended id w state :: post) → Alternate id (some w) post
  | [], _, h => by simpa [Alternate] using h
  | .suspended _ _ _ :: pre, _, h => of_suspended pre h
  | .woken _ _ _ _ _ _ :: pre, _, h => of_suspended pre h.2
  | .delivered _ _ :: pre, _, h => of_suspended pre h

/-- Nothing wakes an instance that has no wait, until it is suspended. -/
theorem Alternate.endings_eq_nil :
    ∀ (ms : List Moment), Alternate id none ms → endings id ms = []
  | [], _ => rfl
  | .suspended k w s :: rest, h => by
    by_cases hk : k = id
    · simp [endings, suspends, hk]
    · have ih := endings_eq_nil rest (by simpa [Alternate, hk] using h)
      simpa [endings, suspends, wakes, hk] using ih
  | .woken k w kept target b a :: rest, h => by
    by_cases hk : k = id
    · exact absurd (h.1 hk) (by simp)
    · have ih := endings_eq_nil rest (by simpa [Alternate, hk] using h.2)
      simpa [endings, suspends, wakes, hk] using ih
  | .delivered e s :: rest, h => by
    have ih := endings_eq_nil rest h
    simpa [endings, suspends, wakes] using ih

/-- A wait has one ending at most. -/
theorem Alternate.endings {w : Wait} : ∀ (ms : List Moment), Alternate id (some w) ms →
    (endings id ms).length ≤ 1 ∧
      ∀ m ∈ endings id ms, ∃ kept target before after, m = .woken id w kept target before after
  | [], _ => ⟨Nat.zero_le _, fun _ h => absurd h List.not_mem_nil⟩
  | .suspended k w' s :: rest, h => by
    by_cases hk : k = id
    · simp [Moment.endings, suspends, hk]
    · have ih := Alternate.endings rest (by simpa [Alternate, hk] using h)
      simpa [Moment.endings, suspends, wakes, hk] using ih
  | .woken k w' kept target b a :: rest, h => by
    by_cases hk : k = id
    -- The instance has no wait from here on, so this is the only ending.
    · obtain rfl := Option.some.inj (h.1 hk)
      subst hk
      have none := Alternate.endings_eq_nil rest (by simpa [Alternate] using h.2)
      have one : Moment.endings k (.woken k w kept target b a :: rest) =
          [.woken k w kept target b a] := by
        simpa [Moment.endings, suspends, wakes] using none
      rw [one]
      exact ⟨Nat.le_refl _, fun m hm => ⟨kept, target, b, a, List.mem_singleton.1 hm⟩⟩
    · have ih := Alternate.endings rest (by simpa [Alternate, hk] using h.2)
      simpa [Moment.endings, suspends, wakes, hk] using ih
  | .delivered e s :: rest, h => by
    have ih := Alternate.endings rest h
    simpa [Moment.endings, suspends, wakes] using ih

/-- An instance that is woken has been suspended before, and has been neither suspended nor woken
since. -/
theorem Alternate.of_woken {w : Wait} {kept target : Option Nat} {before after : Cascade}
    {post : List Moment} : ∀ (pre : List Moment) {last : Option Wait},
      Alternate id last (pre ++ .woken id w kept target before after :: post) →
        (last = some w ∧ ∀ m ∈ pre, m.suspends id = false ∧ m.wakes id = false) ∨
          ∃ pre₁ state pre₂, pre = pre₁ ++ .suspended id w state :: pre₂ ∧
            ∀ m ∈ pre₂, m.suspends id = false ∧ m.wakes id = false
  | [], last, h => .inl ⟨h.1 rfl, fun _ h => absurd h List.not_mem_nil⟩
  | .suspended k w' s :: pre, last, h => by
    rcases of_woken pre h with ⟨hlast, free⟩ | ⟨pre₁, state, pre₂, rfl, free⟩
    -- The wait that comes to its end is the one of this suspension.
    · by_cases hk : k = id
      · subst hk
        obtain rfl : w' = w := by simpa using hlast
        exact .inr ⟨[], s, pre, rfl, free⟩
      · refine .inl ⟨by simpa [hk] using hlast, List.forall_mem_cons.2 ⟨?_, free⟩⟩
        simp [suspends, wakes, hk]
    · exact .inr ⟨_ :: pre₁, state, pre₂, rfl, free⟩
  | .woken k w' kept' target' b a :: pre, last, h => by
    rcases of_woken pre h.2 with ⟨hlast, free⟩ | ⟨pre₁, state, pre₂, rfl, free⟩
    · by_cases hk : k = id
      · simp [hk] at hlast
      · refine .inl ⟨by simpa [hk] using hlast, List.forall_mem_cons.2 ⟨?_, free⟩⟩
        simp [suspends, wakes, hk]
    · exact .inr ⟨_ :: pre₁, state, pre₂, rfl, free⟩
  | .delivered e s :: pre, last, h => by
    rcases of_woken pre h with ⟨hlast, free⟩ | ⟨pre₁, state, pre₂, rfl, free⟩
    · refine .inl ⟨hlast, List.forall_mem_cons.2 ⟨?_, free⟩⟩
      simp [suspends, wakes]
    · exact .inr ⟨_ :: pre₁, state, pre₂, rfl, free⟩

end Moment

/-! ## Paths -/

namespace Cascade

variable {c c' : Cascade} {id : InstanceId} {w : Wait}

theorem waitOf?_of_passes (h : ReflTransGen Passes c c')
    (hw : c'.toSession.waitOf? id = some w) : c.toSession.waitOf? id = some w := by
  induction h with
  | refl => exact hw
  | tail _ last ih => exact ih (last.waitOf?_of hw)

/-- A change leaves all waits and timers as they are, unless instances end. -/
theorem Change.waits_or_removes (h : c.Change c') (hs : c.toSession.Sound) :
    (c'.timers = c.timers ∧
      ∀ id w, c.toSession.waitOf? id = some w → c'.toSession.waitOf? id = some w) ∨
        Removes c c' := by
  cases h with
  | begin h _ =>
    refine .inl ⟨(spawn_frame h).2.2.2.1, fun id w hw => ?_⟩
    obtain ⟨i, hi, -⟩ := Option.bind_eq_some_iff.1 hw
    have older := Id.ne_next (hs.instances id i hi).begun
    obtain ⟨compiled, depth, rfl, -⟩ := get?_spawn h
    exact (waitOf?_spawn h older).trans hw
  | @move k j live running pc _ =>
    refine .inl ⟨rfl, fun id w hw => ?_⟩
    -- Only a running instance moves on, and this one is suspended.
    have other : id ≠ k := by
      rintro rfl
      rw [Session.waitOf?, live, Option.bind_some, Instance.wait?_of_running running] at hw
      cases hw
    rw [Session.waitOf?, Table.get?_insert_of_ne other]
    exact hw
  | prune h => exact .inr h.removes
  | _ => exact .inl ⟨rfl, fun _ _ hw => hw⟩

/-- An instance that waits keeps waiting, or ends. -/
theorem Change.waits (h : c.Change c') (hs : c.toSession.Sound)
    (hw : c.toSession.waitOf? id = some w) :
    c'.toSession.waitOf? id = some w ∨ c'.instances.get? id = none := by
  rcases h.waits_or_removes hs with ⟨-, waits⟩ | removes
  · exact .inl (waits id w hw)
  · obtain ⟨i, hi, hwait⟩ := Option.bind_eq_some_iff.1 hw
    cases hi' : c'.instances.get? id with
    | none => exact .inr rfl
    | some i' =>
      obtain ⟨i₀, hi₀, left⟩ := removes.survivors id i' hi'
      obtain rfl := Option.some.inj (hi.symm.trans hi₀)
      have same := (Instance.wait?_congr left.phase).trans hwait
      exact .inl (Option.bind_eq_some_iff.2 ⟨i', hi', same⟩)

theorem Passes.waits (h : c.Passes c') (hs : c.toSession.Sound)
    (hw : c.toSession.waitOf? id = some w) :
    c'.toSession.waitOf? id = some w ∨ c'.instances.get? id = none := by
  cases h with
  | change h => exact h.waits hs hw
  | aside h =>
    rw [Session.waitOf?, h.instances]
    exact .inl hw
  | close instances =>
    rw [instances]
    exact .inr rfl

/-- An instance waits, or has ended before that. -/
def WaitsOn (id : InstanceId) (w : Wait) (c : Cascade) : Prop :=
  c.toSession.waitOf? id = some w ∨ c.instances.get? id = none ∧ id.number ≤ c.created

theorem WaitsOn.later (h : WaitsOn id w c) (hs : c.toSession.Sound)
    (l : c.toSession.Later c'.toSession)
    (waits : c.toSession.waitOf? id = some w →
      c'.toSession.waitOf? id = some w ∨ c'.instances.get? id = none) : WaitsOn id w c' := by
  rcases h with hw | ⟨gone, begun⟩
  · obtain ⟨i, hi, -⟩ := Option.bind_eq_some_iff.1 hw
    exact (waits hw).imp_right fun gone =>
      ⟨gone, Nat.le_trans (hs.instances id i hi).begun l.created⟩
  · exact .inr ⟨l.gone begun gone, Nat.le_trans begun l.created⟩

theorem WaitsOn.passes (h : WaitsOn id w c) (hs : c.toSession.Sound)
    (changes : ReflTransGen Passes c c') : WaitsOn id w c' := by
  induction changes with
  | refl => exact h
  | tail first last ih =>
    exact ih.later ((Path.of_changes first).passes_sound hs) last.later
      (last.waits ((Path.of_changes first).passes_sound hs))

end Cascade

namespace Path

variable {c c' : Cascade} {ms : List Moment}

/-- Suspensions and wakings alternate. -/
theorem alternates (h : Path Cascade.Passes c ms c') (id : InstanceId) : ∀ last : Option Wait,
    (∀ w, c.toSession.waitOf? id = some w → last = some w) → Moment.Alternate id last ms := by
  induction h with
  | nil => exact fun _ _ => trivial
  | change h _ ih => exact fun last hl => ih last fun w hw => hl w (h.waitOf?_of hw)
  | moment h _ ih =>
    cases h with
    | @suspended _ _ k w h =>
      refine fun last hl => ih _ fun w' hw' => ?_
      by_cases hk : k = id
      · subst hk
        -- The wait of a suspension is the one that the instance is suspended for.
        rw [if_pos rfl, ← h.waitOf?_self, hw']
      · rw [if_neg hk]
        exact hl w' ((h.waitOf?_of_ne (Ne.symm hk)).symm.trans hw')
    | @woken _ _ _ k w _ _ h giving =>
      refine fun last hl => ⟨?_, ih _ fun w' hw' => ?_⟩
      · rintro rfl
        exact hl w h.waitOf?_self.1
      -- Nobody is suspended while other things are given up.
      · have hw₁ := Cascade.waitOf?_of_passes giving hw'
        by_cases hk : k = id
        · subst hk
          rw [h.waitOf?_self.2] at hw₁
          cases hw₁
        · rw [if_neg hk]
          exact hl w' ((h.waitOf?_of_ne (Ne.symm hk)).symm.trans hw₁)
    | delivered => exact ih

/-- The states that a path tells of lie on it. -/
theorem visits (h : Path Cascade.Passes c ms c') (hs : c.toSession.Sound)
    (hl : c.toSession.Linked) : ∀ m ∈ ms, ∀ d ∈ m.states,
      c.toSession.Later d.toSession ∧ d.toSession.Linked := by
  induction h with
  | nil => exact fun _ hm => absurd hm List.not_mem_nil
  | change h _ ih =>
    intro m hm d hd
    obtain ⟨later, linked⟩ := ih (h.sound hs) (h.linked hs hl) m hm d hd
    exact ⟨h.later.trans later, linked⟩
  | @moment c c₁ _ m _ h _ ih =>
    have one := Path.moment h (.nil c₁)
    have hl₁ := one.passes_linked hs hl
    intro m' hm d hd
    rcases List.mem_cons.1 hm with rfl | hm
    -- A moment tells of the state before it or of the one after it.
    · have ends : d = c ∨ d = c₁ := by
        cases h with
        | suspended => exact .inr (List.mem_singleton.1 hd)
        | woken => simpa [Moment.states] using hd
        | delivered => exact .inl (List.mem_singleton.1 hd)
      rcases ends with rfl | rfl
      · exact ⟨.refl _, hl⟩
      · exact ⟨one.passes_later, hl₁⟩
    · obtain ⟨later, linked⟩ := ih (one.passes_sound hs) hl₁ m' hm d hd
      exact ⟨one.passes_later.trans later, linked⟩

/-- A wait has no other end than those that the history tells of. -/
theorem waitsOn {id : InstanceId} {w : Wait} (h : Path Cascade.Passes c ms c')
    (hs : c.toSession.Sound) (hw : Cascade.WaitsOn id w c) (none : Moment.endings id ms = []) :
    Cascade.WaitsOn id w c' := by
  induction h with
  | nil => exact hw
  | change h _ ih => exact ih (h.sound hs) (hw.later hs h.later (h.waits hs)) none
  | @moment _ c₁ _ m _ h _ ih =>
    have hs₁ := (Path.moment h (.nil c₁)).passes_sound hs
    cases h with
    | @suspended _ _ k _ h =>
      -- Neither a suspended instance nor one that has ended is running, so it is not suspended.
      have other : k ≠ id := by
        rintro rfl
        obtain ⟨live, running, -⟩ := h
        rcases hw with hw | ⟨gone, -⟩
        · rw [Session.waitOf?, live, Option.bind_some, Instance.wait?_of_running running] at hw
          cases hw
        · rw [live] at gone
          cases gone
      refine ih hs₁ (hw.later hs h.later fun hw => .inl ?_) ?_
      · rwa [h.waitOf?_of_ne (Ne.symm other)]
      · simpa [Moment.endings, Moment.suspends, Moment.wakes, other] using none
    | @woken _ _ _ k _ _ _ h giving =>
      have other : k ≠ id := by
        rintro rfl
        simp [Moment.endings, Moment.suspends, Moment.wakes] at none
      refine ih hs₁ (Cascade.WaitsOn.passes ?_ (h.sound hs) giving) ?_
      · refine hw.later hs h.later fun hw => .inl ?_
        rwa [h.waitOf?_of_ne (Ne.symm other)]
      · simpa [Moment.endings, Moment.suspends, Moment.wakes, other] using none
    | delivered =>
      refine ih hs hw ?_
      simpa [Moment.endings, Moment.suspends, Moment.wakes] using none

end Path

/-! ## What has been given up -/

/-- The instances that go down with another one: its children that may not outlive it, and so on. -/
inductive Session.Attached (s : Session) (root : InstanceId) : InstanceId → Prop
  | root : Attached s root root
  | child {p k : InstanceId} {i : Instance} (above : Attached s root p)
      (live : s.instances.get? k = some i) (parent : i.parent = some p)
      (attached : i.isDetached = false) : Attached s root k

/-- Nothing will come of an arm that was given up at a time. What it had started until then and
what had been started below has ended, the call is not queued and its result is not delivered. -/
def Armed.IsOver (before now : Session) : Armed → Prop
  | .event => True
  | .child root => ∀ k, before.Attached root k → now.instances.get? k = none
  | .call k => (∀ r ∈ now.calls.queue, r.call ≠ k) ∧
      ∀ owner action, (now.calls.complete k).1 ≠ .deliver owner action

/-- What was attached to an instance that has ended has ended. -/
theorem Session.Attached.gone {before now : Session} {root k : InstanceId}
    (h : before.Attached root k) (hs : before.Sound) (later : before.Later now)
    (linked : now.Linked) (ended : now.instances.get? root = none) :
    now.instances.get? k = none := by
  induction h with
  | root => exact ended
  | @child p k i _ live parent attached ih =>
    rw [Option.eq_none_iff_forall_ne_some]
    intro i' hi'
    -- If it were live, so would be its parent, which has ended.
    obtain ⟨j, hj, hd, hp, -⟩ := later.instances k i' (hs.instances k i live).begun hi'
    obtain rfl := Option.some.inj (live.symm.trans hj)
    obtain ⟨q, hq, -⟩ := linked k i' p hi' ((hp attached).trans parent) (hd.trans attached)
    rw [ih] at hq
    cases hq

theorem Armed.IsLost.isOver {before now : Session} {a : Armed} (h : a.IsLost now)
    (hs : before.Sound) (later : before.Later now) (linked : now.Linked) :
    a.IsOver before now := by
  cases a with
  | event => trivial
  | child root => exact fun k hk => hk.gone hs later linked h
  | call k => exact Calls.isSpent_iff.1 h

namespace Path

variable {c c' : Cascade} {pre post ms : List Moment} {id : InstanceId} {w : Wait}

/-- A wait that has not come to its end leaves its instance waiting, or the instance has ended. -/
theorem waitsOn_of_suspended {state : Cascade} (h : Path Cascade.Passes c ms c')
    (hm : ms = pre ++ .suspended id w state :: post) (hs : c.toSession.Sound)
    (none : Moment.endings id post = []) : Cascade.WaitsOn id w c' := by
  obtain ⟨d, d', before, happens, after⟩ := h.at_moment hm
  cases happens with
  | suspended h => exact after.waitsOn (h.sound (before.passes_sound hs)) (.inl h.waitOf?_self) none

/-- What a wait has not kept at its end is over from then on, and its timer is out. -/
theorem isOver_of_woken {kept target : Option Nat} {before after : Cascade}
    (h : Path Cascade.Passes c ms c')
    (hm : ms = pre ++ .woken id w kept target before after :: post) (hs : c.toSession.Sound)
    (hl : c.toSession.Linked) : ∀ now ∈ after :: post.flatMap Moment.states ++ [c'],
      (∀ n a, w.arms[n]? = some a → kept ≠ some n → a.IsOver before.toSession now.toSession) ∧
        ∀ t, w.timer = some t → now.timers.armed.get? t = none := by
  obtain ⟨d, d', first, happens, rest⟩ := h.at_moment hm
  cases happens with
  | woken wakes giving lost disarmed =>
    have hsb := first.passes_sound hs
    have hlb := first.passes_linked hs hl
    have given := Path.of_changes giving
    have hsa := given.passes_sound (wakes.sound hsb)
    have hla := given.passes_linked (wakes.sound hsb) (wakes.linked hlb)
    have later := wakes.later.trans given.passes_later
    obtain ⟨live, waiting⟩ := wakes
    have hw := (hsb.instances id _ live).waits w waiting
    intro now hnow
    -- Every later state is reached from the one right after the waking.
    have reached : after.toSession.Later now.toSession ∧ now.toSession.Linked := by
      rcases List.mem_append.1 hnow with hnow | hnow
      · rcases List.mem_cons.1 hnow with rfl | hnow
        · exact ⟨.refl _, hla⟩
        · obtain ⟨m, hm, hd⟩ := List.mem_flatMap.1 hnow
          exact rest.visits hsa hla m hm now hd
      · obtain rfl := List.mem_singleton.1 hnow
        exact ⟨rest.passes_later, rest.passes_linked hsa hla⟩
    refine ⟨fun n a hn hne => ?_, fun t ht => ?_⟩
    -- An arm that has been lost stays so, because what it was armed with had been issued.
    · have issued := (hw.issued a (List.mem_of_getElem? hn)).later later
      have lost := (lost n a hn hne).later issued reached.1
      exact lost.isOver hsb (later.trans reached.1) reached.2
    · have issued := Nat.le_trans (hw.timer t ht) later.timers.issued
      exact reached.1.timers.get?_eq_none issued (disarmed t ht)

end Path

namespace Session

/-- In every run, every wait comes to one end at most, and until then the instance waits or has been
ended. Each end is the end of the wait for which the instance was suspended last. From then on every
arm but the one that resolved it is over, and the timer of the wait is out. -/
theorem suspension_resolves_once (name : String) (library : FlowLibrary) (limits : Limits)
    (context : Params) (os : List Operation) :
    let s := new name library limits context
    (∀ pre id w state post, s.historyOf os = pre ++ .suspended id w state :: post →
      (Moment.endings id post).length ≤ 1 ∧
        (∀ m ∈ Moment.endings id post,
          ∃ kept target before after, m = .woken id w kept target before after) ∧
        (Moment.endings id post = [] →
          (s.applyAll os).waitOf? id = some w ∨ (s.applyAll os).instances.get? id = none)) ∧
    (∀ pre id w kept target before after post,
      s.historyOf os = pre ++ .woken id w kept target before after :: post →
        (∃ pre₁ state pre₂, pre = pre₁ ++ .suspended id w state :: pre₂ ∧
          ∀ m ∈ pre₂, m.suspends id = false ∧ m.wakes id = false) ∧
        ∀ now ∈ after :: post.flatMap Moment.states ++ [(s.applyAll os).openCascade],
          (∀ n a, w.arms[n]? = some a → kept ≠ some n → a.IsOver before.toSession now.toSession) ∧
            ∀ t, w.timer = some t → now.timers.armed.get? t = none) := by
  intro s
  have hs : s.Sound := sound_new name library limits context
  have hl : s.Linked := linked_new name library limits context
  have path := path_historyOf hs os
  -- In the beginning there is no instance, so none has a wait.
  have alternates : ∀ id, Moment.Alternate id none (s.historyOf os) := fun id =>
    path.alternates id none fun w hw => by cases hw
  refine ⟨fun pre id w state post hm => ?_, fun pre id w kept target before after post hm => ?_⟩
  · have alternate := alternates id
    rw [hm] at alternate
    obtain ⟨one, same⟩ := (alternate.of_suspended pre).endings post
    refine ⟨one, same, fun none => ?_⟩
    have waits := path.waitsOn_of_suspended hm hs none
    exact waits.imp_right And.left
  · have alternate := alternates id
    rw [hm] at alternate
    have suspended := (alternate.of_woken pre).resolve_left fun h => by cases h.1
    exact ⟨suspended, path.isOver_of_woken hm hs hl⟩

end Session

end Dialogue
