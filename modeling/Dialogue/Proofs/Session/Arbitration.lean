import Dialogue.Proofs.Session.Isolation

/-!
# What comes of winning an event

Those who compete for an event are compared once, when it is delivered. By the time of its turn a
winner may have ended: it goes down with an instance whose pattern is broken, or with an older one
that takes the event too. It may also fail at its turn, because what the event binds conflicts with
a parameter. Nobody is asked in its place, so an event may be lost on all who have competed for it.
There is no other way in which a winner does not go on.

## Main definitions

* `Cascade.Remains` — having ended, or being where one was at some time
* `Cascade.Turns` — what has happened by the turn of one of those who take an event
* `Cascade.ResumesBy` — a claim lets its instance go on
* `Cascade.IsExposed`, `Cascade.Conflicts` — how a winner may come to its end instead

## Main results

* `Cascade.Remains.path` — a suspended instance that is not woken ends or stays where it is
* `Cascade.winner_cases` — what a winner comes to at its turn
* `Session.winners_resumed_or_ended` — every winner goes on or comes to its end
* `Session.event_lost_on_claimants` — an event of which nothing comes, though one who has competed
  for it still waits
-/

namespace Dialogue

open Relation (ReflTransGen)

namespace Cascade

variable {c c' : Cascade} {id : InstanceId} {i : Instance} {w : Wait} {e : Event}

/-! ## Instances that are not woken -/

/-- An instance has ended, or it is where it was at some time. -/
structure Remains (id : InstanceId) (i : Instance) (c : Cascade) : Prop where
  begun : id.number ≤ c.created
  state : ∀ i', c.instances.get? id = some i' → i.Unmoved i'

theorem remains_of_live (hs : c.toSession.Sound) (hi : c.instances.get? id = some i) :
    Remains id i c := by
  refine ⟨(hs.instances id i hi).begun, fun i' hi' => ?_⟩
  obtain rfl := Option.some.inj (hi.symm.trans hi')
  exact .refl i

/-- A suspended instance remains where it is if it is still live after something that only leaves it
there. -/
theorem Remains.later (h : Remains id i c) (l : c.toSession.Later c'.toSession)
    (still : ∀ j j', c.instances.get? id = some j → i.Unmoved j →
      c'.instances.get? id = some j' → j.Unmoved j') : Remains id i c' := by
  refine ⟨Nat.le_trans h.begun l.created, fun j' hj' => ?_⟩
  obtain ⟨j, hj, -⟩ := l.instances id j' h.begun hj'
  exact (h.state j hj).trans (still j j' hj (h.state j hj) hj')

/-- Another instance is changed. -/
theorem Remains.of_insert {k : InstanceId} {j : Instance} (h : Remains id i c)
    (l : c.toSession.Later c'.toSession) (other : id ≠ k)
    (hc : c'.instances = c.instances.insert k j) : Remains id i c' := by
  refine h.later l fun j j' hj _ hj' => ?_
  rw [hc, Table.get?_insert_of_ne other] at hj'
  obtain rfl := Option.some.inj (hj.symm.trans hj')
  exact .refl j

/-- An instance that remains suspended does not run. -/
theorem Remains.ne_of_running {k : InstanceId} {j : Instance} (h : Remains id i c)
    (hw : i.wait? = some w) (live : c.instances.get? k = some j) (running : j.phase = .running) :
    id ≠ k := by
  rintro rfl
  rw [← Instance.wait?_congr (h.state j live).phase, Instance.wait?_of_running running] at hw
  cases hw

theorem Remains.change (h : Remains id i c) (hw : i.wait? = some w) (ch : c.Change c') :
    Remains id i c' := by
  have later := ch.later
  -- Most changes leave all instances as they are.
  have same : c'.instances = c.instances → Remains id i c' := fun heq =>
    h.later later fun j j' hj _ hj' => by
      rw [heq] at hj'
      obtain rfl := Option.some.inj (hj.symm.trans hj')
      exact .refl j
  cases ch with
  | begin hspawn _ =>
    refine h.later later fun j j' hj _ hj' => ?_
    have begun : ∀ k, k = id → k.number ≤ c.created := fun k hk => hk ▸ h.begun
    obtain ⟨j₀, hj₀, unmoved⟩ := spares_spawn begun hspawn id j rfl hj
    obtain rfl := Option.some.inj (hj₀.symm.trans hj')
    exact unmoved
  | move live running => exact h.of_insert later (h.ne_of_running hw live running) rfl
  | prune prunes =>
    refine h.later later fun j j' hj _ hj' => ?_
    obtain ⟨j₀, hj₀, left⟩ := prunes.removes.survivors id j' hj'
    obtain rfl := Option.some.inj (hj.symm.trans hj₀)
    exact left.unmoved
  | _ => exact same rfl

theorem Remains.changes (h : Remains id i c) (hw : i.wait? = some w) (changes : Changes c c') :
    Remains id i c' := by
  induction changes with
  | refl => exact h
  | tail _ last ih => exact ih.change hw last

/-- A suspended instance that is not woken remains where it is. -/
theorem Remains.path {ms : List Moment} (h : Remains id i c) (hw : i.wait? = some w)
    (p : Path Change c ms c') (hn : id ∉ Moment.wakings ms) : Remains id i c' := by
  induction p with
  | nil => exact h
  | change ch _ ih => exact ih (h.change hw ch) hn
  | moment happens _ ih =>
    cases happens with
    | @suspended _ _ k _ s =>
      have later := s.later
      obtain ⟨live, running, -⟩ := s
      exact ih (h.of_insert later (h.ne_of_running hw live running) rfl) hn
    | @woken _ _ _ k _ _ _ s giving =>
      obtain ⟨first, others⟩ := not_or.1 (mt List.mem_cons.2 hn)
      have later := s.later
      obtain ⟨live, -⟩ := s
      exact ih ((h.of_insert later first rfl).changes hw giving) others
    | delivered => exact ih h hn

/-- A suspended instance that is not woken stays in the same wait. -/
theorem waitOf?_eq_of_path {ms : List Moment} {w' : Wait} (hs : c.toSession.Sound)
    (p : Path Change c ms c') (hn : id ∉ Moment.wakings ms) (hw : c.toSession.waitOf? id = some w)
    (hw' : c'.toSession.waitOf? id = some w') : w' = w := by
  obtain ⟨i, hi, hwait⟩ := Option.bind_eq_some_iff.1 hw
  obtain ⟨i', hi', hwait'⟩ := Option.bind_eq_some_iff.1 hw'
  have unmoved := ((remains_of_live hs hi).path hwait p hn).state i' hi'
  rw [Instance.wait?_congr unmoved.phase, hwait] at hwait'
  exact (Option.some.inj hwait').symm

/-! ## Winners -/

/-- A claim lets its instance go on: the instance is woken from the wait in which it competed for
the event, at the arm of the claim. -/
def ResumesBy (c : Cascade) (e : Event) (w : Claim) : Prop :=
  ∃ wait before after, c.toSession.waitOf? w.id = some wait ∧
    .woken w.id wait (some w.index) (some w.arm.resume) before after ∈ c.deliverHistory e

/-- An instance stands below one that may end before its turn: one whose pattern is broken, or an
older one that takes the event. -/
def IsExposed (c : Cascade) (e : Event) (id : InstanceId) : Prop :=
  ∃ a, c.toSession.Attached a id ∧
    (c.IsBroken e a ∨ a.number < id.number ∧ (c.IsAddressed e a ∨ c.Wins e a))

/-- What an event binds for a claim conflicts with a parameter of the instance. -/
def Conflicts (c : Cascade) (w : Claim) : Prop :=
  ∃ i err, c.instances.get? w.id = some i ∧
    checkBindings i.locals w.bindings i.isParameter = .error err

theorem foldHistory_append {σ α : Type*} (step : σ → α → σ) (moments : σ → α → List Moment)
    (s : σ) (as bs : List α) : foldHistory step moments s (as ++ bs) =
      foldHistory step moments s as ++ foldHistory step moments (as.foldl step s) bs := by
  induction as generalizing s with
  | nil => rfl
  | cons a rest ih => simp only [List.cons_append, foldHistory, ih, List.append_assoc, List.foldl]

/-- The turn of one of those who take an event: what has happened by then, and what comes after. -/
structure Turns (c : Cascade) (e : Event) (id : InstanceId) (r : Resolution) (d : Cascade) :
    Prop where
  path : ∃ ms, Path Change c ms d ∧ id ∉ Moment.wakings ms
  moments : ∀ m ∈ d.resumeHistory id r, m ∈ c.deliverHistory e
  rest : ∃ ms, Path Change (d.resume id r) ms (c.deliver e)
  exposed : (c.instances.get? id).isSome → d.instances.get? id = none → c.IsExposed e id

/-- What has ended by its turn stands below one of those who have acted before. -/
theorem isExposed_of_gone (h : c.Ready) {pre : List (InstanceId × Resolution)}
    (older : ∀ r ∈ pre, r ∈ c.consumers e ∧ r.1.number < id.number)
    (live : (c.instances.get? id).isSome)
    (gone : (pre.foldl (fun c r => c.resume r.1 r.2) (c.purge e)).instances.get? id = none) :
    c.IsExposed e id := by
  have hs := h.orderly.sound
  have purge := changes_purge hs e
  by_contra safe
  let A : InstanceId → Prop := fun a => (∃ b ∈ c.broken e, b.1 = a) ∨ ∃ r ∈ pre, r.1 = a
  have apart : c.Apart A id := by
    refine ⟨live, fun a ha above => safe ⟨a, above, ?_⟩⟩
    rcases ha with ⟨b, hb, rfl⟩ | ⟨r, hr, rfl⟩
    · obtain ⟨j, hj, hc⟩ := (mem_broken_iff hs).1 hb
      exact .inl ⟨j, b.2, hj, hc⟩
    · obtain ⟨taken, less⟩ := older r hr
      rcases concerns_of_mem_consumers hs taken with addressed | wins | broken
      · exact .inr ⟨less, .inl addressed⟩
      · exact .inr ⟨less, .inr wins⟩
      · exact .inl broken
  -- Nobody who has acted can take down what stands apart from them.
  have sheltered := shelters_apart h A
  have purged : Spares (c.Apart A) c (c.purge e) :=
    spares_purge sheltered.toGuards fun b hb => not_apart_self (.inl ⟨b, hb, rfl⟩)
  have awaits := ((Path.of_changes purge).orderly h.orderly).awaitsOwn
  have spared := purged.trans (spares_foldl_resume (sheltered.changes purge) awaits
    fun r hr => not_apart_self (.inr ⟨r, hr, rfl⟩))
  obtain ⟨i, hi⟩ := Option.isSome_iff_exists.1 live
  obtain ⟨i', hi', -⟩ := spared id i apart hi
  rw [gone] at hi'
  cases hi'

/-- Those who take an event before an instance have begun before it, and only they are woken until
its turn. -/
theorem path_until_turn (hs : c.toSession.Sound) {r : Resolution}
    {pre post : List (InstanceId × Resolution)} (split : c.consumers e = pre ++ (id, r) :: post) :
    (∀ r ∈ pre, r ∈ c.consumers e ∧ r.1.number < id.number) ∧
      ∃ ms, Path Change c ms (pre.foldl (fun c r => c.resume r.1 r.2) (c.purge e)) ∧
        id ∉ Moment.wakings ms := by
  have sorted := pairwise_consumers hs e
  rw [split] at sorted
  have older : ∀ r ∈ pre, r ∈ c.consumers e ∧ r.1.number < id.number := fun r hr =>
    ⟨split ▸ List.mem_append_left _ hr,
      (List.pairwise_append.1 sorted).2.2 r hr _ List.mem_cons_self⟩
  have purge := changes_purge hs e
  have before := path_foldl_resume (Changes.sound purge hs) pre
  refine ⟨older, _, (Path.of_changes purge).trans before, fun woken => ?_⟩
  obtain ⟨r', hr', heq⟩ := List.mem_map.1 ((moments_foldl_resume pre (c.purge e)).2.subset woken)
  have less := (older r' hr').2
  rw [heq] at less
  exact Nat.lt_irrefl _ less

theorem exists_turn (h : c.Ready) {r : Resolution} (taken : (id, r) ∈ c.consumers e) :
    ∃ d, Turns c e id r d := by
  have hs := h.orderly.sound
  obtain ⟨pre, post, split⟩ := List.append_of_mem taken
  obtain ⟨older, ms, before, asleep⟩ := path_until_turn hs split
  have turn := path_resume (before.sound hs) id r
  have after := path_foldl_resume (turn.sound (before.sound hs)) post
  refine ⟨_, ⟨ms, before, asleep⟩, fun m hm => ?_, ?_, isExposed_of_gone h older⟩
  · rw [deliverHistory, split, foldHistory_append]
    exact List.mem_cons_of_mem _ (List.mem_append_right _ (List.mem_append_left _ hm))
  · rw [deliver_eq, split, List.foldl_append]
    exact ⟨_, after⟩

/-- An instance goes on at the arm of its claim, unless what the event binds conflicts with a
parameter. -/
theorem resume_arm_cases (hs : c.toSession.Sound) (hi : c.instances.get? id = some i)
    (hw : i.wait? = some w) (index : Nat) (arm : Arm) (bindings : Params) :
    (∃ before after, .woken id w (some index) (some arm.resume) before after ∈
        c.resumeHistory id (.arm index arm bindings)) ∨
      (∃ err, checkBindings i.locals bindings i.isParameter = .error err) ∧
        (c.resume id (.arm index arm bindings)).instances.get? id = none := by
  cases hcheck : checkBindings i.locals bindings i.isParameter with
  | ok _ =>
    refine .inl ⟨c, c.disarm i (some index), ?_⟩
    simp [resumeHistory, hi, hw, hcheck]
  | error err =>
    refine .inr ⟨⟨err, rfl⟩, ?_⟩
    have fails : c.resume id (.arm index arm bindings) = c.terminate id err true := by
      simp [resume, hi, Instance.isWaiting, hw, hcheck]
    rw [fails]
    exact get?_terminate_self hs id err true

/-- A winner is resumed at its turn, or it has ended by then or fails. -/
theorem winner_cases (h : c.Ready) {w : Claim} (wins : w ∈ winners (c.claims e)) :
    c.ResumesBy e w ∨ (c.deliver e).instances.get? w.id = none ∧
      (c.IsExposed e w.id ∨ c.Conflicts w) := by
  have hs := h.orderly.sound
  have taken : (w.id, .arm w.index w.arm w.bindings) ∈ c.consumers e :=
    (mem_consumers_iff hs).2 (.inr ⟨w, wins, rfl, rfl⟩)
  obtain ⟨wait, waiting⟩ := waits_of_mem_consumers hs taken
  obtain ⟨i, hi, hw⟩ := Option.bind_eq_some_iff.1 waiting
  obtain ⟨d, turn⟩ := exists_turn h taken
  obtain ⟨ms, path, asleep⟩ := turn.path
  obtain ⟨ms', rest⟩ := turn.rest
  have hsd := path.sound hs
  have remains := (remains_of_live hs hi).path hw path asleep
  have resumed := path_resume hsd w.id (.arm w.index w.arm w.bindings)
  -- What has ended does not come back until the delivery is over.
  have stays : (d.resume w.id (.arm w.index w.arm w.bindings)).instances.get? w.id = none →
      (c.deliver e).instances.get? w.id = none :=
    ((rest.mono fun _ _ => .change).passes_later).gone
      (Nat.le_trans remains.begun (resumed.mono fun _ _ => .change).passes_later.created)
  cases hd : d.instances.get? w.id with
  | none =>
    have idle : d.resume w.id (.arm w.index w.arm w.bindings) = d := by simp [resume, hd]
    exact .inr ⟨stays (by rw [idle, hd]), .inl (turn.exposed (by rw [hi]; rfl) hd)⟩
  | some j =>
    have unmoved := remains.state j hd
    have hwj : j.wait? = some wait := (Instance.wait?_congr unmoved.phase).trans hw
    rcases resume_arm_cases hsd hd hwj w.index w.arm w.bindings with
      ⟨before, after, woken⟩ | ⟨⟨err, hcheck⟩, gone⟩
    · exact .inl ⟨wait, before, after, waiting, turn.moments _ woken⟩
    · have parameters : j.isParameter = i.isParameter := by
        funext name
        rw [Instance.isParameter, Instance.isParameter, unmoved.flow]
      rw [unmoved.locals, parameters] at hcheck
      exact .inr ⟨stays gone, .inr ⟨i, err, hi, hcheck⟩⟩

end Cascade

namespace Session

/-- At every delivery for which somebody competes, some claims win, and each of them lets its
instance go on, unless the instance has ended. That happens only if it stands below one with a
broken pattern or below an older one that takes the event, or if what the event binds conflicts with
one of its parameters. Those whose claims do not win are not woken in any case. -/
theorem winners_resumed_or_ended (name : String) (library : FlowLibrary) (limits : Limits)
    (context : Params) (os : List Operation) (e : Event) (c : Cascade)
    (delivered : .delivered e c ∈ (new name library limits context).historyOf os)
    (claimed : c.claims e ≠ []) :
    (∃ w : Claim, w.Wins (c.claims e)) ∧
      (∀ w : Claim, w.Wins (c.claims e) → c.ResumesBy e w ∨
        (c.deliver e).instances.get? w.id = none ∧ (c.IsExposed e w.id ∨ c.Conflicts w)) ∧
      ∀ v ∈ c.claims e, ¬ v.Wins (c.claims e) → v.id ∉ Moment.wakings (c.deliverHistory e) := by
  have ready := ready_of_delivered (ready_new name library limits context) delivered
  have hs := ready.orderly.sound
  have winners_iff : ∀ w : Claim, w ∈ winners (c.claims e) ↔ w.Wins (c.claims e) := fun w =>
    mem_winners_iff (Cascade.pairwise_claims hs e)
  refine ⟨?_, fun w wins => Cascade.winner_cases ready ((winners_iff w).2 wins),
    fun v hv loses woken => loses ?_⟩
  · obtain ⟨w, hw⟩ := List.exists_mem_of_ne_nil _ (winners_ne_nil claimed)
    exact ⟨w, (winners_iff w).1 hw⟩
  -- Whoever is woken takes the event, and a claim is only one reason to do so.
  · have made := (Cascade.mem_claims_iff hs).1 hv
    obtain ⟨ms, heq, -, sub⟩ := c.deliverHistory_eq e
    rw [heq] at woken
    obtain ⟨⟨k, r⟩, taken, rfl : k = v.id⟩ := List.mem_map.1 (sub.subset woken)
    rcases (Cascade.mem_consumers_iff hs).1 taken with addressed | ⟨w, hw, hid, -⟩
    · cases Cascade.candidate_unique hs addressed made
    · have won := (Cascade.mem_claims_iff hs).1 ((winners_iff w).1 hw).mem
      have same := Cascade.candidate_unique hs (hid ▸ won) made
      obtain rfl := Candidate.claim.inj (Option.some.inj (Except.ok.inj same))
      exact (winners_iff w).1 hw

/-- A flow that listens to everything that the user says. -/
def listeningFlows : List FlowDefinition :=
  [⟨"listener", [], "", [.loop [.expect ⟨EventName.userSaid, ∅, ∅, false⟩]]⟩]

/-- The only one who competes for what the user says wins it, and goes on. -/
theorem winners_resumed_or_ended_listening :
    ∃ library, FlowLibrary.ofDefinitions Vocabulary.standard listeningFlows = .ok library ∧
      ∃ e c w, .delivered e c ∈ (new "session" library .standard ∅).historyOf
          [.start ["listener"], .submit (.userSaid "hi")] ∧
        w ∈ c.claims e ∧ c.ResumesBy e w := by
  have run : (FlowLibrary.ofDefinitions Vocabulary.standard listeningFlows).toOption.any
      (fun library => ((new "session" library .standard ∅).historyOf
        [.start ["listener"], .submit (.userSaid "hi")]).any (Moment.delivers fun e c =>
          !(c.claims e).isEmpty &&
            (c.claims e).all fun w => ((c.deliver e).instances.get? w.id).isSome)) = true := by
    decide +kernel
  obtain ⟨library, hlib, e, c, hm, found⟩ := exists_delivered run
  simp only [Bool.and_eq_true, Bool.not_eq_true', List.isEmpty_eq_false_iff,
    List.all_eq_true] at found
  obtain ⟨claimed, live⟩ := found
  obtain ⟨⟨w, wins⟩, ended, -⟩ :=
    winners_resumed_or_ended "session" library .standard ∅ _ e c hm claimed
  refine ⟨library, hlib, e, c, w, hm, wins.mem, (ended w wins).resolve_right ?_⟩
  rintro ⟨gone, -⟩
  have still := live w wins.mem
  rw [gone] at still
  cases still

/-- The inner flow wins what the user says, and goes down with the guard above it, whose pattern is
broken. The other flow has competed for the event, and waits as before. Nobody goes on. -/
theorem event_lost_on_claimants :
    ∃ library, FlowLibrary.ofDefinitions Vocabulary.standard guardedFlows = .ok library ∧
      ∃ e c wait, .delivered e c ∈ (new "session" library .standard ∅).historyOf
          [.start ["guard", "other"], .submit (.userSaid "hi")] ∧
        e.name = EventName.userSaid ∧ (∃ v ∈ c.claims e, v.id = ⟨3⟩) ∧
          c.waitOf? ⟨3⟩ = some wait ∧ (c.deliver e).waitOf? ⟨3⟩ = some wait ∧
            Moment.wakings (c.deliverHistory e) = [] := by
  have run : (FlowLibrary.ofDefinitions Vocabulary.standard guardedFlows).toOption.any
      (fun library => ((new "session" library .standard ∅).historyOf
        [.start ["guard", "other"], .submit (.userSaid "hi")]).any (Moment.delivers fun e c =>
          e.name = EventName.userSaid && (c.claims e).any (fun v => v.id = ⟨3⟩) &&
            (c.toSession.waitOf? ⟨3⟩).isSome &&
              (c.deliver e).toSession.waitOf? ⟨3⟩ = c.toSession.waitOf? ⟨3⟩ &&
                (Moment.wakings (c.deliverHistory e)).isEmpty)) = true := by decide +kernel
  obtain ⟨library, hlib, e, c, hm, found⟩ := exists_delivered run
  simp only [Bool.and_eq_true, decide_eq_true_eq, List.any_eq_true, List.isEmpty_iff] at found
  obtain ⟨⟨⟨⟨said, claimed⟩, waiting⟩, still⟩, nobody⟩ := found
  obtain ⟨wait, hw⟩ := Option.isSome_iff_exists.1 waiting
  exact ⟨library, hlib, e, c, wait, hm, said, claimed, hw, still.trans hw, nobody⟩

end Session

end Dialogue
