import Dialogue.Proofs.Session.Act
import Dialogue.Proofs.Session.Sequence

/-!
# Lifecycle events are conserved

The session itself reports the life of its instances, and it does so exactly: whenever an instance
begins or ends, one notice is written and one event is produced, and never else. So the log of a
run tells the life of every instance, and the events that the session produces are those that the
log tells of, one for one and in this order.

An instance ends at most once, although the same end may be brought about in several ways in one
step: whoever has ended is not live any more, and only live instances are ended. What has ended is
remembered with the outcome that was told. Closing a session is the exception. It drops what is
live without telling of an end.

Who is heard is settled among events that instances send, so what the session itself reports is
always kept, and a turn that is not broken off delivers all that it keeps.

## Main definitions

* `Notice.report?`, `Notice.isAbout` — the event that reports what a notice tells, and of whom
* `Fate`, `Fate.notices` — what becomes of an instance, and all that is told of it
* `Session.Recorded`, `Session.Books` — what has been told agrees with what is there
* `Cascade.Tells`, `Cascade.Adds`, `Cascade.Quiet` — what is told on the way, that it is reported at
  once, and that nothing is told
* `Session.logOf`, `Session.reportedOf`, `Session.failedOf`, `Session.DropsIn` — what is told,
  reported, reported as failed and dropped in a run

## Main results

* `Cascade.Act.exists_adds` — an act tells of an instance at most once, and reports what it tells
* `Cascade.quiet_settle` — what the session itself reports is always kept
* `Cascade.drain_tells`, `Session.exists_enters` — the books are kept by a turn, and by every
  operation
* `Session.lifecycle_conserved` — lifecycle events are conserved in every run
-/

namespace Dialogue

open Relation (ReflTransGen)

/-! ## What is told of an instance -/

namespace Notice

/-- The event by which the session reports what a notice tells, if it does. -/
def report? : Notice → Option Event
  | .flowStarted id flow _ => some (Event.of EventName.flowStarted
      [("flow", .string flow), ("instance_id", .ofNat id.number)])
  | .flowCompleted id flow => some (Event.of EventName.flowFinished
      [("flow", .string flow), ("instance_id", .ofNat id.number)])
  | .flowAborted id flow reason => some (Event.of EventName.flowFailed
      [("flow", .string flow), ("instance_id", .ofNat id.number), ("reason", .string reason)])
  | _ => none

/-- Whether a notice tells that a certain instance has begun or has ended. -/
def isAbout (id : InstanceId) : Notice → Bool
  | .flowStarted k _ _ | .flowCompleted k _ | .flowAborted k _ _ => k = id
  | _ => false

theorem isAbout_of_report? {n : Notice} (h : n.report? = none) (id : InstanceId) :
    n.isAbout id = false := by
  cases n with
  | flowStarted | flowCompleted | flowAborted => cases h
  | _ => rfl

end Notice

/-- What has become of an instance. -/
inductive Fate where
  /-- It has not ended. -/
  | open
  /-- It has come to the end of its body. -/
  | completed
  /-- It was ended early. -/
  | aborted (reason : String)

namespace Fate

/-- How the end of an instance is told. -/
def ending? (id : InstanceId) (flow : String) : Fate → Option Notice
  | .open => none
  | completed => some (.flowCompleted id flow)
  | aborted reason => some (.flowAborted id flow reason)

/-- All that is told of an instance, which was started by a name and runs a flow. -/
def notices (id : InstanceId) (name flow : String) (depth : Nat) (f : Fate) : List Notice :=
  .flowStarted id name depth :: (f.ending? id flow).toList

end Fate

/-- What has become of an instance in a phase. -/
def Phase.fate : Phase → Fate
  | .running | .waiting _ => .open
  | .completed => .completed
  | .aborted reason => .aborted reason

/-- All that a log tells of an instance. -/
def lifeOf (log : List Notice) (id : InstanceId) : List Notice := log.filter (Notice.isAbout id)

/-- An instance that has been created, what has become of it, and how that is told. -/
structure Session.Recorded (s : Session) (log : List Notice) (dropped : InstanceId → Prop)
    (id : InstanceId) (fate : Fate) : Prop where
  /-- It was started as a flow of the library, and this has been told once. If it has ended, that
  has been told once. -/
  told : ∃ name flow depth, s.library.get? name = some flow ∧
    lifeOf log id = fate.notices id name flow.definition.name depth ∧
      (∀ i, s.instances.get? id = some i → i.flow = flow) ∧
        ∀ i, s.archive.get? id = some i → i.flow = flow
  /-- Its end has not been told as long as it is live, and if it was dropped. -/
  live : fate = .open ↔ (s.instances.get? id).isSome ∨ dropped id
  /-- If it is remembered, it is remembered with the outcome that has been told. -/
  remembered : ∀ i, s.archive.get? id = some i → i.phase.fate = fate

/-- What has been told agrees with what is there. -/
structure Session.Books (s : Session) (log : List Notice) (failed : List Failure)
    (dropped : InstanceId → Prop) : Prop where
  created : ∀ id, 1 ≤ id.number → id.number ≤ s.created → ∃ fate, s.Recorded log dropped id fate
  begun : ∀ id, (s.instances.get? id).isSome → 1 ≤ id.number ∧ id.number ≤ s.created
  ended : ∀ id i, s.archive.get? id = some i → id.number ≤ s.created
  unborn : ∀ id, ¬ (1 ≤ id.number ∧ id.number ≤ s.created) → lifeOf log id = []
  /-- What was dropped is gone. -/
  gone : ∀ id, dropped id → id.number ≤ s.created ∧ s.instances.get? id = none
  /-- Whoever is reported as failed was ended early for that reason. -/
  reasons : ∀ f ∈ failed, s.Recorded log dropped f.id (.aborted f.error.message)
  /-- Nobody is reported as failed twice. -/
  once : (failed.map Failure.id).Nodup

theorem lifeOf_append (log ns : List Notice) (id : InstanceId) :
    lifeOf (log ++ ns) id = lifeOf log id ++ lifeOf ns id :=
  List.filter_append ..

theorem lifeOf_eq_nil {ns : List Notice} {id : InstanceId} (h : ∀ n ∈ ns, n.isAbout id = false) :
    lifeOf ns id = [] :=
  List.filter_eq_nil_iff.2 fun n hn => by simp [h n hn]

/-- Events are among others, each of them with a number, and in the same order. -/
abbrev Event.KeptAmong : List Event → List Event → Prop :=
  List.SublistForall₂ fun e e' => ∃ n, e' = e.stamped n

theorem Event.KeptAmong.append {es es' ks ks' : List Event} (h : KeptAmong es ks)
    (h' : KeptAmong es' ks') : KeptAmong (es ++ es') (ks ++ ks') := by
  obtain ⟨l, stamped, sub⟩ := List.sublistForall₂_iff.1 h
  obtain ⟨l', stamped', sub'⟩ := List.sublistForall₂_iff.1 h'
  exact List.sublistForall₂_iff.2 ⟨l ++ l', List.rel_append stamped stamped', sub.append sub'⟩

namespace Session

variable {s s' : Session} {log ns : List Notice} {failed : List Failure}
  {dropped : InstanceId → Prop} {id k : InstanceId} {fate : Fate}

/-! ## Nothing is told -/

/-- What is recorded of an instance stays so if nothing more is told of it. -/
theorem Recorded.of_frame (h : s.Recorded log dropped k fate) (library : s'.library = s.library)
    (silent : lifeOf ns k = [])
    (live : (s'.instances.get? k).isSome = (s.instances.get? k).isSome)
    (same : ∀ i', s'.instances.get? k = some i' →
      ∃ i, s.instances.get? k = some i ∧ i'.flow = i.flow)
    (archive : ∀ i, s'.archive.get? k = some i → s.archive.get? k = some i) :
    s'.Recorded (log ++ ns) dropped k fate where
  told := by
    obtain ⟨name, flow, depth, found, told, runs, ran⟩ := h.told
    refine ⟨name, flow, depth, library ▸ found, ?_, fun i' hi' => ?_,
      fun i hi => ran i (archive i hi)⟩
    · rw [lifeOf_append, silent, List.append_nil, told]
    · obtain ⟨i, hi, flow⟩ := same i' hi'
      exact flow.trans (runs i hi)
  live := live ▸ h.live
  remembered i hi := h.remembered i (archive i hi)

/-- The books stay right if nothing is told of any instance. -/
theorem Books.of_frame (h : s.Books log failed dropped) (library : s'.library = s.library)
    (created : s'.created = s.created) (silent : ∀ n ∈ ns, n.report? = none)
    (live : ∀ k, (s'.instances.get? k).isSome = (s.instances.get? k).isSome)
    (same : ∀ k i', s'.instances.get? k = some i' →
      ∃ i, s.instances.get? k = some i ∧ i'.flow = i.flow)
    (archive : s'.archive = s.archive) : s'.Books (log ++ ns) failed dropped := by
  have quiet (k : InstanceId) : lifeOf ns k = [] :=
    lifeOf_eq_nil fun n hn => Notice.isAbout_of_report? (silent n hn) k
  have recorded {k fate} (r : s.Recorded log dropped k fate) :
      s'.Recorded (log ++ ns) dropped k fate :=
    r.of_frame library (quiet k) (live k) (same k) fun i hi => archive ▸ hi
  exact {
    created k first last := by
      obtain ⟨fate, r⟩ := h.created k first (created ▸ last)
      exact ⟨fate, recorded r⟩
    begun k alive := created ▸ h.begun k (live k ▸ alive)
    ended k i hi := created ▸ h.ended k i (archive ▸ hi)
    unborn k hk := by
      rw [lifeOf_append, quiet, h.unborn k (created ▸ hk)]
      rfl
    gone k hk := by
      obtain ⟨begun, absent⟩ := h.gone k hk
      refine ⟨created ▸ begun, ?_⟩
      rw [← Option.isNone_iff_eq_none, ← Option.not_isSome, live, absent]
      rfl
    reasons f hf := recorded (h.reasons f hf)
    once := h.once }

/-! ## Something is told of one instance -/

/-- Nothing happens to any instance but one, unless the session forgets how it has ended. -/
structure SparesOthers (s : Session) (id : InstanceId) (s' : Session) : Prop where
  library : s'.library = s.library
  live : ∀ k ≠ id, (s'.instances.get? k).isSome = (s.instances.get? k).isSome
  same : ∀ k ≠ id, ∀ i', s'.instances.get? k = some i' →
    ∃ i, s.instances.get? k = some i ∧ i'.flow = i.flow
  archive : ∀ k ≠ id, ∀ i, s'.archive.get? k = some i → s.archive.get? k = some i

/-- The books stay right if they are right for the one instance of which something is told, and if
no other one is created. -/
theorem Books.tell (h : s.Books log failed dropped) (spares : s.SparesOthers id s') {n : Notice}
    (about : ∀ k, n.isAbout k = decide (id = k))
    (own : s'.Recorded (log ++ [n]) dropped id fate)
    (begun : 1 ≤ id.number ∧ id.number ≤ s'.created) (created : s.created ≤ s'.created)
    (older : ∀ k ≠ id, k.number ≤ s'.created → k.number ≤ s.created)
    (unfailed : ∀ f ∈ failed, f.id ≠ id) (undropped : ¬ dropped id) :
    s'.Books (log ++ [n]) failed dropped := by
  have silent {k} (hk : k ≠ id) : lifeOf [n] k = [] :=
    lifeOf_eq_nil fun m hm => by simp [List.mem_singleton.1 hm, about, hk.symm]
  -- Of all others nothing more is told.
  have others {k fate} (hk : k ≠ id) (r : s.Recorded log dropped k fate) :
      s'.Recorded (log ++ [n]) dropped k fate :=
    r.of_frame spares.library (silent hk) (spares.live k hk) (spares.same k hk)
      (spares.archive k hk)
  exact {
    created k first last := by
      by_cases same : k = id
      · exact ⟨fate, same ▸ own⟩
      · obtain ⟨fate, r⟩ := h.created k first (older k same last)
        exact ⟨fate, others same r⟩
    begun k live := by
      by_cases same : k = id
      · exact same ▸ begun
      · obtain ⟨first, last⟩ := h.begun k (spares.live k same ▸ live)
        exact ⟨first, Nat.le_trans last created⟩
    ended k i hi := by
      by_cases same : k = id
      · exact same ▸ begun.2
      · exact Nat.le_trans (h.ended k i (spares.archive k same i hi)) created
    unborn k hk := by
      have other : k ≠ id := fun same => hk (same ▸ begun)
      rw [lifeOf_append, h.unborn k fun hb => hk ⟨hb.1, Nat.le_trans hb.2 created⟩, silent other]
      rfl
    gone k hk := by
      have other : k ≠ id := fun same => undropped (same ▸ hk)
      obtain ⟨before, absent⟩ := h.gone k hk
      refine ⟨Nat.le_trans before created, ?_⟩
      rw [← Option.isNone_iff_eq_none, ← Option.not_isSome, spares.live k other, absent]
      rfl
    reasons f hf := others (unfailed f hf) (h.reasons f hf)
    once := h.once }

/-! ## An instance ends -/

/-- Of an instance that is live nothing but its beginning has been told. When it ends, that is told,
and it is remembered as it has been told of. -/
theorem Recorded.ends {i : Instance} {phase : Phase} {n : Notice}
    (h : s.Recorded log dropped i.id .open) (hi : s.instances.get? i.id = some i)
    (ending : phase.fate.ending? i.id i.flowName = some n)
    (about : n.isAbout i.id = true) (undropped : ¬ dropped i.id)
    (library : s'.library = s.library) (gone : s'.instances.get? i.id = none)
    (remembered : ∀ j, s'.archive.get? i.id = some j → j = { i with phase }) :
    s'.Recorded (log ++ [n]) dropped i.id phase.fate := by
  obtain ⟨name, flow, depth, found, told, runs, -⟩ := h.told
  obtain rfl := runs i hi
  refine ⟨⟨name, i.flow, depth, library ▸ found, ?_, fun j hj => ?_, fun j hj => ?_⟩,
    ⟨fun isOpen => ?_, ?_⟩, fun j hj => ?_⟩
  -- The notice about the end is the last one about the instance.
  · have last : lifeOf [n] i.id = [n] := by simp [lifeOf, about]
    rw [lifeOf_append, told, last, Fate.notices, Fate.notices]
    exact congrArg (fun e => _ :: Option.toList e) ending.symm
  · rw [gone] at hj
    cases hj
  · rw [remembered j hj]
  · rw [isOpen] at ending
    cases ending
  · rintro (alive | hd)
    · rw [gone] at alive
      cases alive
    · exact absurd hd undropped
  · rw [remembered j hj]

/-- Nobody is live who has been reported as failed. -/
theorem Books.not_failed_of_live (h : s.Books log failed dropped)
    (live : (s.instances.get? id).isSome) : id ∉ failed.map Failure.id := by
  intro hid
  obtain ⟨f, hf, rfl⟩ := List.mem_map.1 hid
  have ended := (h.reasons f hf).live.2 (.inl live)
  cases ended

/-- An instance that ends is told of for the last time, and remembered as it has been told of. -/
theorem Books.ends (h : s.Books log failed dropped) {i : Instance}
    (hi : s.instances.get? i.id = some i) {phase : Phase} {n : Notice}
    (ending : phase.fate.ending? i.id i.flowName = some n)
    (instances : s'.instances = (s.instances.erase i.id).map (Instance.unlinked i)) {size : Nat}
    (archive : s'.archive = (s.archive.insert i.id { i with phase }).keepLast size)
    (library : s'.library = s.library) (created : s'.created = s.created) :
    s'.Books (log ++ [n]) failed dropped ∧ s'.Recorded (log ++ [n]) dropped i.id phase.fate := by
  have about (k : InstanceId) : n.isAbout k = decide (i.id = k) := by
    cases hf : phase.fate <;> rw [hf] at ending <;> cases ending <;> rfl
  have erased (k : InstanceId) : s'.instances.get? k =
      if k = i.id then none else (s.instances.get? k).map (Instance.unlinked i k) := by
    rw [instances]
    exact Cascade.get?_unlinked (c := s.openCascade) k
  have kept {k j} (hj : s'.archive.get? k = some j) :
      (s.archive.insert i.id { i with phase }).get? k = some j :=
    Table.get?_of_keepLast (archive ▸ hj)
  have live : (s.instances.get? i.id).isSome := by rw [hi]; rfl
  have begun := h.begun i.id live
  have undropped : ¬ dropped i.id := fun hd => by
    rw [(h.gone i.id hd).2] at live
    cases live
  -- Until now the books say of the instance that it is live.
  have own : s'.Recorded (log ++ [n]) dropped i.id phase.fate := by
    obtain ⟨fate, r⟩ := h.created i.id begun.1 begun.2
    obtain rfl : fate = .open := r.live.2 (.inl live)
    refine r.ends hi ending (by simp [about]) undropped library ?_ fun j hj => ?_
    · rw [erased, if_pos rfl]
    · exact (Option.some.inj ((Table.get?_insert_self ..).symm.trans (kept hj))).symm
  have spares : s.SparesOthers i.id s' := by
    refine ⟨library, fun k hk => ?_, fun k hk j' hj' => ?_, fun k hk j hj => ?_⟩
    · rw [erased, if_neg hk, Option.isSome_map]
    · rw [erased, if_neg hk] at hj'
      obtain ⟨j, hj, rfl⟩ := Option.map_eq_some_iff.1 hj'
      exact ⟨j, hj, rfl⟩
    · exact (Table.get?_insert_of_ne hk).symm.trans (kept hj)
  have unfailed : ∀ f ∈ failed, f.id ≠ i.id := fun f hf same =>
    h.not_failed_of_live live (List.mem_map.2 ⟨f, hf, same⟩)
  exact ⟨h.tell spares about own ⟨begun.1, created ▸ begun.2⟩ created.ge
    (fun k _ hk => created ▸ hk) unfailed undropped, own⟩

/-! ## An instance begins -/

/-- Whoever has been reported as failed has begun. -/
theorem Books.begun_of_failed (h : s.Books log failed dropped) {f : Failure} (hf : f ∈ failed) :
    f.id.number ≤ s.created := by
  by_contra hn
  obtain ⟨name, flow, depth, -, told, -⟩ := (h.reasons f hf).told
  rw [h.unborn f.id fun hb => hn hb.2] at told
  cases told

/-- A new instance is told of for the first time. -/
theorem Books.begins {c c' : Cascade} {flow args parent isDetached}
    (h : c.toSession.Books log failed dropped)
    (spawned : c.spawn flow args parent isDetached = some (id, c')) (depth : Nat) :
    c'.toSession.Books (log ++ [.flowStarted id flow depth]) failed dropped := by
  obtain ⟨compiled, depth', rfl, hget, found⟩ := Cascade.get?_spawn spawned
  obtain ⟨created, archive, -⟩ := Cascade.spawn_frame spawned
  have library := (Cascade.reports_spawn spawned).2.1
  let new : InstanceId := ⟨c.created + 1⟩
  have unborn : ¬ new.number ≤ c.created := Nat.not_succ_le_self _
  -- Nothing has been told of a number that has not been given yet.
  have own : c'.toSession.Recorded (log ++ [.flowStarted new flow depth]) dropped new .open := by
    refine ⟨⟨flow, compiled, depth, library ▸ found, ?_, fun i hi => ?_, fun i hi => ?_⟩,
      iff_of_true rfl (.inl ?_), fun i hi => ?_⟩
    · rw [lifeOf_append, h.unborn new fun hn => unborn hn.2]
      simp [lifeOf, Notice.isAbout, Fate.notices, Fate.ending?]
    · rw [hget, if_pos rfl] at hi
      exact Option.some.inj hi ▸ rfl
    · rw [archive] at hi
      exact absurd (h.ended new i hi) unborn
    · rw [hget, if_pos rfl]
      rfl
    · rw [archive] at hi
      exact absurd (h.ended new i hi) unborn
  have spares : c.toSession.SparesOthers new c'.toSession := by
    refine ⟨library, fun k hk => ?_, fun k hk i' hi' => ?_, fun k _ i hi => archive ▸ hi⟩
    · rw [hget, if_neg hk, Option.isSome_map]
    · rw [hget, if_neg hk] at hi'
      obtain ⟨i, hi, rfl⟩ := Option.map_eq_some_iff.1 hi'
      exact ⟨i, hi, by split <;> rfl⟩
  have older (k : InstanceId) (hk : k ≠ new) (hn : k.number ≤ c'.created) :
      k.number ≤ c.created := by
    rw [created] at hn
    exact Nat.le_of_lt_succ (Nat.lt_of_le_of_ne hn fun same => hk (congrArg Id.mk same))
  exact h.tell spares (fun k => rfl) own ⟨Nat.succ_pos _, created.ge⟩
    (created ▸ Nat.le_succ _) older (fun f hf => Id.ne_next (h.begun_of_failed hf))
    fun hd => unborn (h.gone new hd).1

/-- An instance that has ended early is reported as failed for the first time. -/
theorem Books.report (h : s.Books log failed dropped) {f : Failure}
    (ended : s.Recorded log dropped f.id (.aborted f.error.message))
    (first : f.id ∉ failed.map Failure.id) : s.Books log (failed ++ [f]) dropped where
  created := h.created
  begun := h.begun
  ended := h.ended
  unborn := h.unborn
  gone := h.gone
  reasons g hg := by
    rcases List.mem_append.1 hg with hg | hg
    · exact h.reasons g hg
    · exact List.mem_singleton.1 hg ▸ ended
  once := by
    rw [List.map_append, List.nodup_append]
    refine ⟨h.once, List.nodup_singleton _, fun k hk k' hk' same => ?_⟩
    obtain rfl := List.mem_singleton.1 hk'
    exact first (same ▸ hk)

end Session

/-! ## Acts -/

namespace Cascade

variable {c c' c'' : Cascade} {ns ns' : List Notice} {fs fs' : List Failure}
  {dropped : InstanceId → Prop}

/-- Notices are written and failures are reported. As far as the books have been right, they still
are. -/
structure Tells (c : Cascade) (ns : List Notice) (fs : List Failure) (c' : Cascade) : Prop where
  notices : c'.notices.toList = c.notices.toList ++ ns
  failures : c'.failures.toList = c.failures.toList ++ fs
  books : ∀ log failed dropped, c.toSession.Books log failed dropped →
    c'.toSession.Books (log ++ ns) (failed ++ fs) dropped

theorem Tells.refl (c : Cascade) : Tells c [] [] c where
  notices := (List.append_nil _).symm
  failures := (List.append_nil _).symm
  books log failed dropped hb := by rwa [List.append_nil, List.append_nil]

theorem Tells.trans (h : Tells c ns fs c') (h' : Tells c' ns' fs' c'') :
    Tells c (ns ++ ns') (fs ++ fs') c'' where
  notices := by rw [h'.notices, h.notices, List.append_assoc]
  failures := by rw [h'.failures, h.failures, List.append_assoc]
  books log failed dropped hb := by
    rw [← List.append_assoc, ← List.append_assoc]
    exact h'.books _ _ _ (h.books _ _ _ hb)

/-- Nothing is told of any instance. -/
theorem Tells.of_frame (notices : c'.notices.toList = c.notices.toList ++ ns)
    (silent : ∀ n ∈ ns, n.report? = none)
    (failures : c'.failures = c.failures) (library : c'.library = c.library)
    (created : c'.created = c.created)
    (live : ∀ k, (c'.instances.get? k).isSome = (c.instances.get? k).isSome)
    (same : ∀ k i', c'.instances.get? k = some i' →
      ∃ i, c.instances.get? k = some i ∧ i'.flow = i.flow)
    (archive : c'.archive = c.archive) : Tells c ns [] c' where
  notices := notices
  failures := by rw [failures, List.append_nil]
  books log failed dropped hb := by
    rw [List.append_nil]
    exact hb.of_frame library created silent live same archive

theorem Tells.of_unchanged (notices : c'.notices.toList = c.notices.toList ++ ns)
    (silent : ∀ n ∈ ns, n.report? = none) (failures : c'.failures = c.failures)
    (library : c'.library = c.library) (created : c'.created = c.created)
    (instances : c'.instances = c.instances) (archive : c'.archive = c.archive) :
    Tells c ns [] c' :=
  .of_frame notices silent failures library created (fun k => by rw [instances])
    (fun k i hi => ⟨i, instances ▸ hi, rfl⟩) archive

/-- Nothing happens to the instances, and nothing is told of them. -/
structure Quiet (c c' : Cascade) : Prop where
  aside : c.Aside c'
  notices : ∃ ns, c'.notices.toList = c.notices.toList ++ ns ∧ ∀ n ∈ ns, Notice.report? n = none
  failures : c'.failures = c.failures

theorem Quiet.of_eq (aside : c.Aside c') (notices : c'.notices = c.notices)
    (failures : c'.failures = c.failures) : c.Quiet c' :=
  ⟨aside, ⟨[], by rw [notices, List.append_nil], nofun⟩, failures⟩

theorem quiet_notify (c : Cascade) {n : Notice} (silent : n.report? = none) :
    c.Quiet (c.notify n) :=
  ⟨c.aside_notify n, ⟨[n], Array.toList_push, by simpa using silent⟩, rfl⟩

theorem Quiet.exists_tells (h : c.Quiet c') :
    ∃ ns, Tells c ns [] c' ∧ ns.filterMap Notice.report? = [] := by
  obtain ⟨ns, notices, silent⟩ := h.notices
  exact ⟨ns, .of_unchanged notices silent h.failures h.aside.library h.aside.created
    h.aside.instances h.aside.archive, List.filterMap_eq_nil_iff.2 silent⟩

/-- What is told is reported at once. -/
structure Adds (c : Cascade) (ns : List Notice) (fs : List Failure) (c' : Cascade) : Prop extends
    Tells c ns fs c' where
  reports : c'.reports = c.reports ++ ns.filterMap Notice.report?

theorem Adds.trans (h : Adds c ns fs c') (h' : Adds c' ns' fs' c'') :
    Adds c (ns ++ ns') (fs ++ fs') c'' where
  toTells := h.toTells.trans h'.toTells
  reports := by rw [h'.reports, h.reports, List.filterMap_append, List.append_assoc]

theorem reports_eq_nil (h : c.produced = #[]) : c.reports = [] := by
  simp [reports, h]

theorem reports_produce_none (c : Cascade) (e : Event) :
    (c.produce none e).reports = c.reports ++ [e] := by
  simp [reports, produce, List.filter_append]

theorem reports_produce_some (c : Cascade) (speaker : InstanceId × Nat) (e : Event) :
    (c.produce (some speaker) e).reports = c.reports := by
  simp [reports, produce, List.filter_append]

/-- Nothing is told of any instance, and nothing is reported. -/
theorem Adds.of_silent (h : Tells c ns fs c') (silent : ∀ n ∈ ns, n.report? = none)
    (reports : c'.reports = c.reports) : Adds c ns fs c' where
  toTells := h
  reports := by rw [reports, List.filterMap_eq_nil_iff.2 silent, List.append_nil]

theorem Quiet.exists_adds (h : c.Quiet c') (produced : c'.produced = c.produced) :
    ∃ ns, Adds c ns [] c' := by
  obtain ⟨ns, tells, silent⟩ := h.exists_tells
  exact ⟨ns, tells, by simp only [Cascade.reports, produced, silent, List.append_nil]⟩

/-- One notice is added, and the event that reports it. -/
theorem Adds.of_report {n : Notice} {e : Event} (hn : n.report? = some e)
    (notices : c'.notices = c.notices.push n) (produced : c'.produced = c.produced.push ⟨none, e⟩)
    (failures : c'.failures.toList = c.failures.toList ++ fs)
    (books : ∀ log failed dropped, c.toSession.Books log failed dropped →
      c'.toSession.Books (log ++ [n]) (failed ++ fs) dropped) : Adds c [n] fs c' where
  notices := by rw [notices, Array.toList_push]
  reports := by
    have same : c'.reports = (c.produce none e).reports := by
      simp only [Cascade.reports, produced, produce]
    rw [same, reports_produce_none, List.filterMap_cons_some hn]
    rfl
  failures := failures
  books := books

theorem exists_adds_spawn {flow args parent isDetached} {id : InstanceId}
    (h : c.spawn flow args parent isDetached = some (id, c')) : ∃ ns, Adds c ns [] c' := by
  obtain ⟨_, depth, _, _, _, _, _, rfl⟩ := begins_of_spawn h
  refine ⟨_, .of_report (by rfl) rfl rfl (List.append_nil _).symm fun log failed dropped hb => ?_⟩
  rw [List.append_nil]
  exact hb.begins h depth

/-- The end of an instance is told, and it is what the books say from then on. -/
theorem books_abort {i : Instance} (hi : c.instances.get? i.id = some i) (error : FlowError)
    {log : List Notice} {failed : List Failure} (hb : c.toSession.Books log failed dropped) :
    (c.abort i.id error).toSession.Books (log ++ [.flowAborted i.id i.flowName error.message])
        failed dropped ∧
      (c.abort i.id error).toSession.Recorded
        (log ++ [.flowAborted i.id i.flowName error.message]) dropped i.id
          (.aborted error.message) := by
  have archive : (c.abort i.id error).archive =
      (c.archive.insert i.id { i with phase := .aborted error.message }).keepLast
        c.limits.archiveSize := by
    rw [abort_eq hi]
    rfl
  have instances : (c.abort i.id error).instances =
      (c.instances.erase i.id).map (Instance.unlinked i) := by
    rw [abort_eq hi]
    rfl
  have ends := ends_abort hi rfl error
  exact hb.ends hi rfl instances archive ends.library ends.created

theorem adds_abort {i : Instance} (hi : c.instances.get? i.id = some i) (error : FlowError) :
    Adds c [.flowAborted i.id i.flowName error.message] [] (c.abort i.id error) := by
  refine .of_report (by rfl) ?_ ?_ ?_ fun log failed dropped hb => ?_
  · rw [abort_eq hi]
    rfl
  · rw [abort_eq hi]
    rfl
  · rw [abort_eq hi, List.append_nil]
    rfl
  · rw [List.append_nil]
    exact (books_abort hi error hb).1

/-- An instance fails: it is reported, and ended early. -/
theorem adds_fail {i : Instance} (hi : c.instances.get? i.id = some i) (error : FlowError) :
    Adds c [.flowAborted i.id i.flowName error.message] [⟨i.id, i.flowName, error⟩]
      (({ c with failures := c.failures.push ⟨i.id, i.flowName, error⟩ } : Cascade).abort
        i.id error) := by
  let c₁ : Cascade := { c with failures := c.failures.push ⟨i.id, i.flowName, error⟩ }
  have hi₁ : c₁.instances.get? i.id = some i := hi
  have added := adds_abort hi₁ error
  refine ⟨⟨added.notices, ?_, fun log failed dropped hb => ?_⟩, added.reports⟩
  · rw [added.failures, List.append_nil]
    exact Array.toList_push
  · obtain ⟨books, ended⟩ := books_abort hi₁ error (c := c₁) hb
    exact books.report ended (hb.not_failed_of_live (by rw [hi]; rfl))

theorem adds_conclude {i : Instance} (hi : c.instances.get? i.id = some i) :
    Adds c [.flowCompleted i.id i.flowName] [] (c.conclude i) := by
  refine .of_report (by rfl) rfl rfl (List.append_nil _).symm fun log failed dropped hb => ?_
  have archive : (c.conclude i).archive =
      (c.archive.insert i.id { i with phase := .completed }).keepLast c.limits.archiveSize := rfl
  have instances : (c.conclude i).instances =
      (c.instances.erase i.id).map (Instance.unlinked i) := rfl
  rw [List.append_nil]
  exact (hb.ends hi rfl instances archive rfl rfl).1

/-- An act tells of one instance at most, and reports at once what it tells. -/
theorem Act.exists_adds (h : c.Act c') : ∃ ns fs, Adds c ns fs c' := by
  cases h with
  | launch h =>
    obtain ⟨ns, adds⟩ := exists_adds_spawn h
    exact ⟨ns, [], adds⟩
  | start _ _ _ _ h =>
    obtain ⟨ns, adds⟩ := exists_adds_spawn h
    exact ⟨ns, [], adds⟩
  | conclude live => exact ⟨_, [], adds_conclude live⟩
  | abort live => exact ⟨_, [], adds_abort live _⟩
  | fail live => exact ⟨_, _, adds_fail live _⟩
  | @change id i i' live flow depth timers =>
    refine ⟨[], [], .of_silent (.of_frame (List.append_nil _).symm nofun rfl rfl rfl (fun k => ?_)
      (fun k j' hj' => ?_) rfl) nofun rfl⟩
    -- It is another state of an instance that was live before, in the same flow.
    · rw [Table.get?_insert]
      split
      · next same =>
        rw [same, live]
        rfl
      · rfl
    · rw [Table.get?_insert] at hj'
      split at hj'
      · next same => exact ⟨i, same ▸ live, Option.some.inj hj' ▸ flow⟩
      · exact ⟨j', hj', rfl⟩
  -- The other acts leave all instances as they are. At most a call that is made is noted.
  | send =>
    refine ⟨[], [], .of_silent (.of_unchanged ?_ nofun rfl rfl rfl rfl rfl) nofun
      (reports_produce_some _ _ _)⟩
    exact (List.append_nil _).symm
  | assign | cancel =>
    refine ⟨[], [], .of_silent (.of_unchanged ?_ nofun rfl rfl rfl rfl rfl) nofun rfl⟩
    exact (List.append_nil _).symm
  | @call p f instr action hosts has calls params =>
    let n : Notice := .actionDispatched (c.calls.start p action params).1 action p
    have silent : ∀ m ∈ [n], m.report? = none := List.forall_mem_singleton.2 rfl
    exact ⟨[n], [], .of_silent (.of_unchanged Array.toList_push silent rfl rfl rfl rfl rfl)
      silent rfl⟩

theorem Acts.exists_adds (h : Acts c c') : ∃ ns fs, Adds c ns fs c' := by
  induction h with
  | refl => exact ⟨[], [], .of_silent (.refl _) nofun rfl⟩
  | tail _ last ih =>
    obtain ⟨ns, fs, first⟩ := ih
    obtain ⟨ns', fs', second⟩ := last.exists_adds
    exact ⟨_, _, first.trans second⟩

/-! ## Settlements -/

/-- What is settled about one event: it is kept under a number, or it is dropped, and that is
noted. Only what an instance has sent is dropped. -/
theorem settleOne_cases (winner : Option (InstanceId × Nat)) (state : Cascade × List Event)
    (p : Produced) :
    (∃ n, (settleOne winner state p).2 = p.event.stamped n :: state.2 ∧
      (settleOne winner state p).1.notices = state.1.notices ∧
        (settleOne winner state p).1.failures = state.1.failures) ∨
    ∃ n : Notice, p.speaker.isSome ∧ n.report? = none ∧
      (settleOne winner state p).2 = state.2 ∧
        (settleOne winner state p).1.notices = state.1.notices.push n ∧
          (settleOne winner state p).1.failures = state.1.failures := by
  obtain ⟨c, kept⟩ := state
  unfold settleOne
  dsimp only
  split
  · next id w beaten =>
    refine .inr ⟨_, ?_, rfl, rfl, rfl, rfl⟩
    cases hp : p.speaker with
    | none => simp [hp] at beaten
    | some s => rfl
  · refine .inl ⟨c.sequenced + 1, rfl, ?_, ?_⟩ <;> split <;> rfl

/-- Whoever is heard, what the session itself reports is kept. -/
theorem exists_kept_foldl (winner : Option (InstanceId × Nat)) (ps : List Produced)
    (state : Cascade × List Event) : ∃ es ns,
      (ps.foldl (settleOne winner) state).2 = es.reverse ++ state.2 ∧
        Event.KeptAmong ((ps.filter fun p => p.speaker.isNone).map Produced.event) es ∧
          (∀ n ∈ ns, Notice.report? n = none) ∧
            (ps.foldl (settleOne winner) state).1.notices.toList = state.1.notices.toList ++ ns ∧
              (ps.foldl (settleOne winner) state).1.failures = state.1.failures := by
  induction ps generalizing state with
  | nil => exact ⟨[], [], rfl, .nil, nofun, (List.append_nil _).symm, rfl⟩
  | cons p rest ih =>
    obtain ⟨es, ns, queued, kept, silent, notices, failures⟩ := ih (settleOne winner state p)
    -- The first event is kept under its number, or it is dropped because its speaker is not heard.
    rcases settleOne_cases winner state p with ⟨n, first, same, others⟩ |
      ⟨n, said, mute, first, noted, others⟩
    · refine ⟨p.event.stamped n :: es, ns, ?_, ?_, silent, notices.trans (by rw [same]),
        failures.trans others⟩
      · rw [List.foldl_cons, queued, first, List.reverse_cons, List.append_assoc]
        rfl
      · rw [List.filter_cons]
        split
        · exact .cons ⟨n, rfl⟩ kept
        · exact .cons_right kept
    · refine ⟨es, n :: ns, ?_, ?_, List.forall_mem_cons.2 ⟨mute, silent⟩, ?_,
        failures.trans others⟩
      · rw [List.foldl_cons, queued, first]
      · rwa [List.filter_cons_of_neg (by simpa [← Option.isSome_iff_ne_none] using said)]
      · rw [List.foldl_cons, notices, noted, Array.toList_push, List.append_assoc]
        rfl

/-- To settle who is heard tells nothing of any instance, and keeps what the session itself has
reported. -/
theorem quiet_settle (c : Cascade) :
    c.Quiet c.settle ∧ Event.KeptAmong c.reports c.settled := by
  let speakers := (c.produced.toList.filter fun p =>
    c.library.vocabulary.isOutput p.event.name).filterMap Produced.speaker
  obtain ⟨es, ns, queued, kept, silent, notices, failures⟩ :=
    exists_kept_foldl (heard? speakers) c.produced.toList ({ c with produced := #[] }, [])
  refine ⟨⟨aside_settle c, ⟨ns, notices, silent⟩, failures⟩, ?_⟩
  have settled_eq : c.settled = es := by
    rw [settled]
    exact (congrArg List.reverse queued).trans (by simp)
  exact settled_eq ▸ kept

/-! ## Turns -/

/-- What is told until the queue is empty is reported at once, and what is reported is kept. -/
theorem drain_tells : ∀ (budget : Nat) {c : Cascade}, c.Ready →
    (∃ ns fs, Tells c ns fs (drain budget c) ∧
      ns.filterMap Notice.report? = drainReports budget c) ∧
    Event.KeptAmong (drainReports budget c) (drainNumbered budget c)
  | budget, c, h => by
    unfold drain drainReports drainNumbered
    cases c.queue with
    | nil => exact ⟨⟨[], [], .refl c, rfl⟩, .nil⟩
    | cons e rest =>
      cases budget with
      | zero =>
        obtain ⟨ns, broken, silent⟩ := (Quiet.of_eq (aside_poison c) rfl rfl).exists_tells
        exact ⟨⟨ns, [], broken, silent⟩, .nil⟩
      | succ budget =>
        let c₁ : Cascade := { c with queue := rest }
        obtain ⟨ns₀, popped, silent₀⟩ :=
          (Quiet.of_eq (aside_pop c rest) rfl rfl).exists_tells
        obtain ⟨ns, fs, delivered⟩ :=
          Acts.exists_adds (acts_deliver (h.pop rest).orderly.sound e)
        obtain ⟨quiet, kept⟩ := quiet_settle (c₁.deliver e)
        obtain ⟨ns', settled, silent⟩ := quiet.exists_tells
        obtain ⟨⟨ns'', fs'', drained, reports⟩, more⟩ :=
          drain_tells budget ((h.pop rest).deliver e)
        -- Before the event is delivered nothing has been produced, so what is reported is what is
        -- told.
        have first : (c₁.deliver e).reports = ns.filterMap Notice.report? := by
          rw [delivered.reports, reports_eq_nil (h.pop rest).produced]
          rfl
        refine ⟨⟨_, _, ((popped.trans delivered.toTells).trans settled).trans drained, ?_⟩,
          kept.append more⟩
        rw [List.filterMap_append, List.filterMap_append, List.filterMap_append, reports,
          silent₀, silent, List.append_nil, ← first]
        rfl

theorem foldl_enqueue_frame {α : Type} (event : α → Event) (as : List α) (c : Cascade) :
    let c' := as.foldl (fun c a => c.enqueue (event a)) c
    c'.notices = c.notices ∧ c'.failures = c.failures ∧ c'.produced = c.produced ∧
      c'.emitted = c.emitted := by
  induction as generalizing c with
  | nil => exact ⟨rfl, rfl, rfl, rfl⟩
  | cons a rest ih => exact ih (c.enqueue (event a))

end Cascade

namespace Session

variable {s : Session} {o : Operation}

/-- Until a turn begins to deliver events instances act, and then nothing happens to them any
more. -/
theorem exists_acts_turn? (hs : s.Sound) {ms : List Moment} {c : Cascade}
    (h : s.turn? o = some (ms, c)) : ∃ c₁ : Cascade, Cascade.Acts s.openCascade c₁ ∧
      c₁.Quiet c ∧ c.produced = c₁.produced := by
  -- Where instances act, nothing else happens.
  have acted {c₁ : Cascade} (acts : Cascade.Acts s.openCascade c₁) : ∃ c₂ : Cascade,
      Cascade.Acts s.openCascade c₂ ∧ c₂.Quiet c₁ ∧ c₁.produced = c₂.produced :=
    ⟨c₁, acts, .of_eq (.refl c₁) rfl rfl, rfl⟩
  cases begins_of_turn? h with
  | @start flows c₁ launched =>
    exact ⟨c₁, Cascade.acts_launchAll hs launched, c₁.quiet_notify rfl, rfl⟩
  | startFlow launched => exact acted (Cascade.acts_launch hs launched)
  | submit e => exact ⟨_, .refl, .of_eq (s.openCascade.aside_enqueue e) rfl rfl, rfl⟩
  | completeCall call result =>
    refine ⟨_, .refl, ?_⟩
    have aside := s.aside_completing call result
    revert aside
    unfold completing
    dsimp only
    split
    · exact fun aside => ⟨.of_eq aside rfl rfl, rfl⟩
    -- A completion may be discarded, and that is noted.
    · exact fun aside => ⟨⟨aside, ⟨[.completionDiscarded call], Array.toList_push,
        by simp [Notice.report?]⟩, rfl⟩, rfl⟩
    · exact fun aside => ⟨.of_eq aside rfl rfl, rfl⟩
  | fireTimers now =>
    obtain ⟨notices, failures, produced, -⟩ := Cascade.foldl_enqueue_frame
      (fun t : TimerId × InstanceId => timeoutEvent t.1 t.2) ((s.tick now).timers.takeDue now).1
      ({ s.tick now with timers := ((s.tick now).timers.takeDue now).2 } : Session).openCascade
    exact ⟨_, .refl, .of_eq (s.aside_firing now) notices failures, produced⟩
  | abort id reason => exact acted (Cascade.acts_terminate hs (by intro _ _; trivial) true)

/-- What is told until a turn begins to deliver events is reported at once. -/
theorem adds_turn? (hs : s.Sound) {ms : List Moment} {c : Cascade}
    (h : s.turn? o = some (ms, c)) : ∃ ns fs, Cascade.Adds s.openCascade ns fs c := by
  obtain ⟨c₁, acts, quiet, produced⟩ := exists_acts_turn? hs h
  obtain ⟨ns, fs, acted⟩ := acts.exists_adds
  obtain ⟨ns', adds⟩ := quiet.exists_adds produced
  exact ⟨_, _, acted.trans adds⟩

/-- The events that the session itself reports in the turn of an operation, in order. -/
def reported (s : Session) (o : Operation) : List Event :=
  match s.turn? o with
  | some (_, c) => c.runReports
  | none => []

/-- The instances that fail in the turn of an operation, in order. -/
def failed (s : Session) (o : Operation) : List Failure :=
  match s.perform? o with
  | some (t, _) => t.failures
  | none => []

/-- The notices that are taken by an operation. -/
def taken (s : Session) : Operation → List Notice
  | .takeNotices => s.takeNotices.1
  | _ => []

/-- A turn does not take notices out of the session. -/
theorem taken_of_turn? {s : Session} {o : Operation} {ms : List Moment} {c : Cascade}
    (h : s.turn? o = some (ms, c)) : s.taken o = [] := by
  cases begins_of_turn? h <;> rfl

/-- An instance is live when the session is closed. -/
def Drops (s : Session) (o : Operation) (id : InstanceId) : Prop :=
  ∃ reason, o = .close reason ∧ s.isClosed = false ∧ (s.instances.get? id).isSome

/-- What the session itself reports is kept, and delivered unless the turn is broken off. -/
theorem keptAmong_numbered (h : s.openCascade.Ready) {t : Turn} {s' : Session}
    (hp : s.perform? o = some (t, s')) :
    Event.KeptAmong (s.reported o) (s.numbered o) ∧
      (t.fault = none → Event.KeptAmong (s.reported o) (Moment.deliveries (s.history o))) := by
  obtain ⟨ordered, -⟩ := isOrdered_of_perform? h hp
  rw [perform?_eq] at hp
  obtain ⟨⟨ms, c⟩, ht, -⟩ := Option.map_eq_some_iff.1 hp
  have kept : Event.KeptAmong (s.reported o) (s.numbered o) := by
    obtain ⟨-, settled⟩ := c.quiet_settle
    obtain ⟨-, drained⟩ := Cascade.drain_tells c.limits.cascadeSteps (ready_turn? h ht)
    have queued : Event.KeptAmong ([] ++ c.runReports) (c.queue ++ c.runNumbered) :=
      Event.KeptAmong.append .nil (settled.append drained)
    rw [reported, numbered, ht]
    exact queued
  refine ⟨kept, fun clean => ?_⟩
  obtain ⟨left, complete, broken, -⟩ := ordered.complete
  have nothing : left = [] := by
    by_contra ne
    have fault := broken.2 ne
    rw [clean] at fault
    cases fault
  rwa [complete, nothing, List.append_nil] at kept

/-- A session that is closed drops what is live, without telling of its end. -/
theorem Books.close {log : List Notice} {failures : List Failure} {dropped : InstanceId → Prop}
    (h : s.Books log failures dropped) (isOpen : s.isClosed = false) (reason : String) :
    (s.close reason).Books (log ++ [.sessionClosed reason]) failures
      fun id => dropped id ∨ s.Drops (.close reason) id := by
  have closed : s.close reason = ({ s with
      isClosed := true
      instances := ∅
      archive := ∅
      timers := s.timers.clear
      calls := s.calls.clear } : Session).notify (.sessionClosed reason) := by
    simp [Session.close, isOpen]
  have quiet (id : InstanceId) : lifeOf [.sessionClosed reason] id = [] := rfl
  have drops (id : InstanceId) : s.Drops (.close reason) id ↔ (s.instances.get? id).isSome :=
    ⟨fun ⟨_, _, _, live⟩ => live, fun live => ⟨reason, rfl, isOpen, live⟩⟩
  -- Whoever was live counts as dropped now.
  have recorded {id fate} (r : s.Recorded log dropped id fate) : (s.close reason).Recorded
      (log ++ [.sessionClosed reason]) (fun id => dropped id ∨ s.Drops (.close reason) id)
        id fate := by
    obtain ⟨name, flow, depth, found, told, -⟩ := r.told
    rw [closed]
    refine ⟨⟨name, flow, depth, found, ?_, nofun, nofun⟩, ?_, nofun⟩
    · rw [lifeOf_append, quiet, List.append_nil, told]
    · rw [drops, r.live]
      exact ⟨fun h => .inr h.symm, fun h => (h.resolve_left nofun).symm⟩
  have created : (s.close reason).created = s.created := by
    rw [closed]
    rfl
  have gone (id : InstanceId) : (s.close reason).instances.get? id = none := by
    rw [closed]
    rfl
  exact {
    created id first last := by
      obtain ⟨fate, r⟩ := h.created id first (created ▸ last)
      exact ⟨fate, recorded r⟩
    begun id live := by
      rw [gone] at live
      cases live
    ended id i hi := by
      rw [closed] at hi
      cases hi
    unborn id hid := by
      rw [lifeOf_append, h.unborn id (created ▸ hid)]
      rfl
    gone id hid := by
      refine ⟨created ▸ ?_, gone id⟩
      rcases hid with dropped | live
      · exact (h.gone id dropped).1
      · exact (h.begun id ((drops id).1 live)).2
    reasons f hf := recorded (h.reasons f hf)
    once := h.once }

/-- What an operation enters in the books: it is told and reported, and the books stay right. -/
structure Enters (s : Session) (o : Operation) (ns : List Notice) : Prop where
  notices : s.taken o ++ (s.apply o).notices.toList = s.notices.toList ++ ns
  reports : ns.filterMap Notice.report? = s.reported o
  books : ∀ log failures dropped, s.Books log failures dropped →
    (s.apply o).Books (log ++ ns) (failures ++ s.failed o) fun id => dropped id ∨ s.Drops o id

/-- Only the end of the session drops anything. -/
theorem or_drops_eq (stays : ¬ ∃ reason, o = .close reason ∧ s.isClosed = false)
    (dropped : InstanceId → Prop) : (fun id => dropped id ∨ s.Drops o id) = dropped := by
  funext id
  exact propext (or_iff_left fun ⟨reason, same, isOpen, _⟩ => stays ⟨reason, same, isOpen⟩)

theorem exists_enters_turn (h : s.openCascade.Ready) {ms : List Moment} {c : Cascade}
    (ht : s.turn? o = some (ms, c)) : ∃ ns, s.Enters o ns := by
  obtain ⟨ns, fs, opening⟩ := adds_turn? h.orderly.sound ht
  obtain ⟨ns', settled, silent⟩ := c.quiet_settle.1.exists_tells
  obtain ⟨⟨ns'', fs'', drained, reports⟩, -⟩ :=
    Cascade.drain_tells c.limits.cascadeSteps (ready_turn? h ht)
  have whole := (opening.toTells.trans settled).trans drained
  have apply_eq : s.apply o = c.run.2 := by rw [s.apply_eq, ht]
  have failed_eq : s.failed o = fs ++ [] ++ fs'' := by
    rw [failed, perform?_eq, ht]
    exact whole.failures
  have first : c.reports = ns.filterMap Notice.report? := by
    rw [opening.reports, Cascade.reports_eq_nil (by rfl)]
    rfl
  have plain : s.taken o = [] ∧ ¬ ∃ reason, o = .close reason ∧ s.isClosed = false := by
    cases begins_of_turn? ht <;> exact ⟨rfl, nofun⟩
  refine ⟨ns ++ ns' ++ ns'', ?_, ?_, fun log failures dropped books => ?_⟩
  · rw [plain.1, apply_eq]
    exact whole.notices
  · rw [reported, ht, List.filterMap_append, List.filterMap_append, reports, silent,
      List.append_nil, ← first]
    rfl
  · rw [or_drops_eq plain.2, failed_eq, apply_eq]
    exact whole.books log failures dropped books

/-- An operation without a turn leaves all instances as they are, unless it closes the session. -/
theorem idle_frame (stays : ¬ ∃ reason, o = .close reason ∧ s.isClosed = false) :
    (s.idle o).library = s.library ∧ (s.idle o).created = s.created ∧
      (s.idle o).instances = s.instances ∧ (s.idle o).archive = s.archive ∧
        s.taken o ++ (s.idle o).notices.toList = s.notices.toList ++ [] := by
  cases o with
  | close reason =>
    have closed : s.isClosed = true := by
      by_contra isOpen
      exact stays ⟨reason, rfl, Bool.eq_false_iff.2 isOpen⟩
    have unchanged : s.idle (.close reason) = s := by simp [idle, Session.close, closed]
    rw [unchanged, List.append_nil]
    exact ⟨rfl, rfl, rfl, rfl, rfl⟩
  | takeNotices => exact ⟨rfl, rfl, rfl, rfl, rfl⟩
  | _ => exact ⟨rfl, rfl, rfl, rfl, (List.append_nil _).symm⟩

theorem exists_enters_idle (ht : s.turn? o = none) : ∃ ns, s.Enters o ns := by
  have apply_eq : s.apply o = s.idle o := by rw [s.apply_eq, ht]
  have unreported : s.reported o = [] := by rw [reported, ht]
  have unfailed : s.failed o = [] := by rw [failed, perform?_eq, ht]; rfl
  by_cases closes : ∃ reason, o = .close reason ∧ s.isClosed = false
  · obtain ⟨reason, rfl, isOpen⟩ := closes
    refine ⟨[.sessionClosed reason], ?_, unreported.symm, fun log failures dropped books => ?_⟩
    · show [] ++ (s.close reason).notices.toList = _
      simp [Session.close, isOpen, notify]
    · rw [unfailed, List.append_nil]
      exact books.close isOpen reason
  · obtain ⟨library, created, instances, archive, notices⟩ := idle_frame closes
    refine ⟨[], apply_eq ▸ notices, unreported.symm, fun log failures dropped books => ?_⟩
    rw [or_drops_eq closes, unfailed, List.append_nil failures, apply_eq]
    exact books.of_frame library created nofun (fun _ => by rw [instances])
      (fun _ i hi => ⟨i, instances ▸ hi, rfl⟩) archive

/-- The books are kept by every operation. -/
theorem exists_enters (h : s.openCascade.Ready) (o : Operation) : ∃ ns, s.Enters o ns := by
  cases ht : s.turn? o with
  | some t => exact exists_enters_turn h ht
  | none => exact exists_enters_idle ht

/-! ## Runs -/

/-- All that is told in a run: the notices that are taken, and those that are left. -/
def logOf : Session → List Operation → List Notice
  | s, [] => s.notices.toList
  | s, o :: os => s.taken o ++ (s.apply o).logOf os

/-- The events that the session itself reports in a run, in order. -/
def reportedOf : Session → List Operation → List Event
  | _, [] => []
  | s, o :: os => s.reported o ++ (s.apply o).reportedOf os

/-- The instances that fail in a run, in order. -/
def failedOf : Session → List Operation → List Failure
  | _, [] => []
  | s, o :: os => s.failed o ++ (s.apply o).failedOf os

/-- An instance is live when the session is closed in a run. -/
def DropsIn : Session → List Operation → InstanceId → Prop
  | _, [], _ => False
  | s, o :: os, id => s.Drops o id ∨ (s.apply o).DropsIn os id

theorem books_applyAll (h : s.openCascade.Ready) (os : List Operation) : ∃ ns,
    s.logOf os = s.notices.toList ++ ns ∧ ns.filterMap Notice.report? = s.reportedOf os ∧
      ∀ log failures dropped, s.Books log failures dropped →
        (s.applyAll os).Books (log ++ ns) (failures ++ s.failedOf os)
          fun id => dropped id ∨ s.DropsIn os id := by
  induction os generalizing s with
  | nil =>
    refine ⟨[], (List.append_nil _).symm, rfl, fun log failures dropped books => ?_⟩
    show s.Books _ _ _
    simpa [failedOf, DropsIn] using books
  | cons o rest ih =>
    obtain ⟨ns, told, reported, books⟩ := exists_enters h o
    obtain ⟨ns', told', reported', books'⟩ := ih (ready_apply h o)
    refine ⟨ns ++ ns', ?_, ?_, fun log failures dropped hb => ?_⟩
    · rw [logOf, told', ← List.append_assoc, told, List.append_assoc]
    · rw [List.filterMap_append, reported, reported', reportedOf]
    · have whole := books' _ _ _ (books log failures dropped hb)
      rw [failedOf, ← List.append_assoc, ← List.append_assoc]
      show ((s.apply o).applyAll rest).Books _ _ _
      simpa only [DropsIn, or_assoc] using whole

/-- The books of a new session are empty. -/
theorem books_new (name : String) (library : FlowLibrary) (limits : Limits) (context : Params) :
    (new name library limits context).Books [] [] fun _ => False where
  created _ first last := absurd (Nat.le_trans first last) (Nat.not_succ_le_zero 0)
  begun _ live := by cases live
  ended _ _ hi := by cases hi
  unborn _ _ := rfl
  gone _ h := h.elim
  reasons _ hf := by cases hf
  once := .nil

/-- In every run the books are right: of each instance that has been created the log tells once that
it has begun; it tells of no end as long as the instance is live, or if it was dropped when the
session was closed; otherwise it tells once how the instance has ended. Nobody fails twice, and who
fails was ended early for that reason. The events that the session itself reports are those that
the log tells of, one for one. All of them are kept, whoever is heard, and they are delivered in the
turn in which they are reported unless that turn has a fault. -/
theorem lifecycle_conserved (name : String) (library : FlowLibrary) (limits : Limits)
    (context : Params) (os : List Operation) :
    let s₀ := new name library limits context
    let s := s₀.applyAll os
    s.Books (s₀.logOf os) (s₀.failedOf os) (s₀.DropsIn os) ∧
      s₀.reportedOf os = (s₀.logOf os).filterMap Notice.report? ∧
        ∀ o t s', s.perform? o = some (t, s') →
          Event.KeptAmong (s.reported o) (s.numbered o) ∧
            (t.fault = none →
              Event.KeptAmong (s.reported o) (Moment.deliveries (s.history o))) := by
  intro s₀ s
  have ready₀ : s₀.openCascade.Ready := ready_new name library limits context
  obtain ⟨ns, told, reported, books⟩ := books_applyAll ready₀ os
  have whole := books [] [] _ (books_new name library limits context)
  obtain rfl : s₀.logOf os = ns := told
  refine ⟨?_, reported.symm, fun o t s' hp => keptAmong_numbered (ready_applyAll ready₀ os) hp⟩
  simpa only [List.nil_append, false_or] using whole

end Session

end Dialogue
