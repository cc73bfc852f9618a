import Dialogue.Proofs.Session.Hearing
import Mathlib.Data.List.DropRight

/-!
# Who is remembered

A session remembers some of the instances that have ended, as many as its limits say. Of all that
have ended it remembers those that began last, and not those that ended last. So an instance that
outlives many younger ones is forgotten at the very moment at which it ends, while those that ended
long before it are still remembered. The two are the same as long as instances end in the order in
which they have begun, or at least those that are to be remembered have begun after all others.

## Main definitions

* `endedOf` — the instances of whose end a log tells, in order
* `Session.Remembers` — what is remembered of those of whose end a log tells

## Main results

* `Cascade.Act.remembers`, `Session.remembers_applyAll` — it is so after every act, and in every run
* `Session.latest_remembered_iff` — who is remembered, and when these are the latest that ended
* `Session.latest_forgotten` — an instance that is forgotten as it ends
-/

namespace Dialogue

/-! ## What is told of ends -/

/-- The instance of whose end a notice tells. -/
def Notice.ended? : Notice → Option InstanceId
  | .flowCompleted id _ | .flowAborted id _ _ => some id
  | _ => none

/-- The instances of whose end a log tells, in order. -/
def endedOf (log : List Notice) : List InstanceId := log.filterMap Notice.ended?

theorem endedOf_append (log ns : List Notice) : endedOf (log ++ ns) = endedOf log ++ endedOf ns :=
  List.filterMap_append ..

theorem endedOf_eq_nil {ns : List Notice} (silent : ∀ n ∈ ns, n.report? = none) :
    endedOf ns = [] := by
  refine List.filterMap_eq_nil_iff.2 fun n hn => ?_
  have := silent n hn
  cases n <;> first | rfl | cases this

/-- The end of an instance is told with its life. -/
theorem endedOf_lifeOf (log : List Notice) (id : InstanceId) :
    endedOf (lifeOf log id) = (endedOf log).filter (· = id) := by
  rw [endedOf, lifeOf, List.filterMap_filter, endedOf, List.filter_filterMap]
  refine List.filterMap_congr fun n _ => ?_
  cases n with
  | flowCompleted k | flowAborted k =>
    by_cases hk : k = id <;> simp [Notice.isAbout, Notice.ended?, Option.filter, hk]
  | flowStarted => simp [Notice.ended?]
  | _ => rfl

theorem endedOf_notices (id : InstanceId) (name flow : String) (depth : Nat) (f : Fate) :
    endedOf (f.notices id name flow depth) = match f with
      | .open => []
      | .completed | .aborted _ => [id] := by
  cases f <;> rfl

namespace Session

variable {s s' : Session} {log ns : List Notice} {failed : List Failure}
  {dropped : InstanceId → Prop} {id : InstanceId}

/-- As long as the books are right, nobody ends twice. -/
theorem Books.nodup_endedOf (h : s.Books log failed dropped) : (endedOf log).Nodup := by
  refine List.nodup_iff_count_le_one.2 fun id => ?_
  rw [List.count_eq_length_filter]
  have filter_eq : (endedOf log).filter (· == id) = endedOf (lifeOf log id) := by
    rw [endedOf_lifeOf]
    rfl
  rw [filter_eq]
  by_cases begun : 1 ≤ id.number ∧ id.number ≤ s.created
  · obtain ⟨fate, recorded⟩ := h.created id begun.1 begun.2
    obtain ⟨name, flow, depth, -, life, -⟩ := recorded.told
    rw [life, endedOf_notices]
    cases fate <;> simp
  · rw [h.unborn id begun]
    exact Nat.zero_le 1

/-- As long as the books are right, whoever is live has not ended. -/
theorem Books.not_live_of_ended (h : s.Books log failed dropped) (ended : id ∈ endedOf log) :
    s.instances.get? id = none := by
  by_contra live
  have live : (s.instances.get? id).isSome := Option.isSome_iff_ne_none.2 live
  obtain ⟨first, last⟩ := h.begun id live
  obtain ⟨fate, recorded⟩ := h.created id first last
  obtain ⟨name, flow, depth, -, life, -⟩ := recorded.told
  have mem : id ∈ endedOf (lifeOf log id) := by
    rw [endedOf_lifeOf]
    exact List.mem_filter.2 ⟨ended, by simp⟩
  rw [life, endedOf_notices, recorded.live.2 (.inl live)] at mem
  cases mem

/-! ## What is remembered -/

/-- Of those of whose end a log tells the youngest are remembered, as many as the limits say. -/
def Remembers (s : Session) (log : List Notice) : Prop :=
  ∃ all : Table InstanceId Instance, (∀ id, (all.get? id).isSome ↔ id ∈ endedOf log) ∧
    s.archive = all.keepLast s.limits.archiveSize

/-- No end is told, and nothing is forgotten. -/
theorem Remembers.of_frame (h : s.Remembers log) (silent : endedOf ns = [])
    (archive : s'.archive = s.archive) (limits : s'.limits = s.limits) :
    s'.Remembers (log ++ ns) := by
  obtain ⟨all, ended, kept⟩ := h
  refine ⟨all, fun id => ?_, ?_⟩
  · rw [ended, endedOf_append, silent, List.append_nil]
  · rw [archive, limits, kept]

/-- An end is told, and whoever has ended is stored with the others. -/
theorem Remembers.ends (h : s.Remembers log) {n : Notice} (told : n.ended? = some id) (i : Instance)
    (archive : s'.archive = (s.archive.insert id i).keepLast s.limits.archiveSize)
    (limits : s'.limits = s.limits) : s'.Remembers (log ++ [n]) := by
  obtain ⟨all, ended, kept⟩ := h
  refine ⟨all.insert id i, fun k => ?_, ?_⟩
  · have last : endedOf [n] = [id] := by rw [endedOf, List.filterMap_cons_some told]; rfl
    rw [Table.get?_insert, endedOf_append, last, List.mem_append, ← ended, List.mem_singleton]
    by_cases same : k = id <;> simp [same]
  · rw [archive, limits, kept, Table.keepLast_insert_keepLast]

end Session

namespace Cascade

open Session

variable {c c' : Cascade} {old : List Notice}

theorem exists_notices_spawn {flow args parent isDetached} {id : InstanceId}
    (h : c.spawn flow args parent isDetached = some (id, c')) :
    ∃ depth, c'.notices = c.notices.push (.flowStarted id flow depth) := by
  obtain ⟨-, depth, -, -, -, -, -, rfl⟩ := begins_of_spawn h
  exact ⟨depth, rfl⟩

theorem remembers_spawn {flow args parent isDetached} {id : InstanceId}
    (spawned : c.spawn flow args parent isDetached = some (id, c'))
    (h : c.toSession.Remembers (old ++ c.notices.toList)) :
    c'.toSession.Remembers (old ++ c'.notices.toList) := by
  obtain ⟨depth, told⟩ := exists_notices_spawn spawned
  obtain ⟨-, archive, limits, -⟩ := spawn_frame spawned
  rw [told, Array.toList_push, ← List.append_assoc]
  exact h.of_frame rfl archive limits

theorem remembers_abort {i : Instance} (live : c.instances.get? i.id = some i) (error : FlowError)
    (h : c.toSession.Remembers (old ++ c.notices.toList)) :
    (c.abort i.id error).toSession.Remembers (old ++ (c.abort i.id error).notices.toList) := by
  rw [abort_eq live]
  let ended : Notice := .flowAborted i.id i.flowName error.message
  have told : (c.abort i.id error).toSession.Remembers (old ++ c.notices.toList ++ [ended]) :=
    h.ends (by rfl) { i with phase := .aborted error.message } (by rw [abort_eq live]; rfl)
      (by rw [abort_eq live]; rfl)
  rw [abort_eq live, List.append_assoc, ← Array.toList_push] at told
  exact told

/-- Whatever a session does at a time, it remembers the youngest of those that have ended. -/
theorem Act.remembers (a : c.Act c') (h : c.toSession.Remembers (old ++ c.notices.toList)) :
    c'.toSession.Remembers (old ++ c'.notices.toList) := by
  cases a with
  | launch spawned => exact remembers_spawn spawned h
  | start _ _ _ _ spawned => exact remembers_spawn spawned h
  | @conclude i live awake =>
    have told : (c.conclude i).notices = c.notices.push (.flowCompleted i.id i.flowName) := rfl
    rw [told, Array.toList_push, ← List.append_assoc]
    exact h.ends (by rfl) _ (by rfl) rfl
  | abort live => exact remembers_abort live _ h
  | @fail i error live =>
    let c₁ : Cascade := { c with failures := c.failures.push ⟨i.id, i.flowName, error⟩ }
    exact remembers_abort (c := c₁) live error h
  | call hosts has calls params =>
    rw [notify, Array.toList_push, ← List.append_assoc]
    exact h.of_frame rfl rfl rfl
  | _ => exact h

theorem Acts.remembers (a : Acts c c') (h : c.toSession.Remembers (old ++ c.notices.toList)) :
    c'.toSession.Remembers (old ++ c'.notices.toList) := by
  induction a with
  | refl => exact h
  | tail _ last ih => exact last.remembers ih

/-- Nothing happens to the instances. -/
theorem Quiet.remembers (q : c.Quiet c') (h : c.toSession.Remembers (old ++ c.notices.toList)) :
    c'.toSession.Remembers (old ++ c'.notices.toList) := by
  obtain ⟨ns, notices, silent⟩ := q.notices
  rw [notices, ← List.append_assoc]
  exact h.of_frame (endedOf_eq_nil silent) q.aside.archive q.aside.limits

theorem remembers_drain : ∀ (budget : Nat) {c : Cascade}, c.Ready →
    c.toSession.Remembers (old ++ c.notices.toList) →
      (drain budget c).toSession.Remembers (old ++ (drain budget c).notices.toList)
  | budget, c, ready, h => by
    unfold drain
    cases c.queue with
    | nil => exact h
    | cons e rest =>
      cases budget with
      | zero => exact h
      | succ budget =>
        let c₁ : Cascade := { c with queue := rest }
        have delivered := (acts_deliver (ready.pop rest).orderly.sound e).remembers (c := c₁) h
        exact remembers_drain budget ((ready.pop rest).deliver e)
          ((c₁.deliver e).quiet_settle.1.remembers delivered)

end Cascade

/-! ## Runs -/

namespace Session

variable {s : Session} {o : Operation} {old : List Notice}

theorem remembers_turn (ready : s.openCascade.Ready)
    (h : s.Remembers (old ++ s.notices.toList)) {ms : List Moment} {c : Cascade}
    (ht : s.turn? o = some (ms, c)) :
    (s.apply o).Remembers (old ++ (s.apply o).notices.toList) := by
  obtain ⟨c₁, acts, quiet, -⟩ := exists_acts_turn? ready.orderly.sound ht
  have opening : c.toSession.Remembers (old ++ c.notices.toList) :=
    quiet.remembers (acts.remembers (c := s.openCascade) h)
  have whole := Cascade.remembers_drain c.limits.cascadeSteps (ready_turn? ready ht)
    (c.quiet_settle.1.remembers opening)
  rw [s.apply_eq, ht]
  exact whole

/-- A session that is closed stays closed. -/
theorem isClosed_of_apply (h : (s.apply o).isClosed = false) : s.isClosed = false := by
  rw [apply_eq] at h
  cases ht : s.turn? o with
  | some t => exact (checkOpen_eq_ok_iff.1 (checkOpen_of_turn? ht)).2
  | none =>
    rw [ht] at h
    cases o with
    | close reason =>
      by_contra closed
      simp [idle, close, Bool.eq_true_of_not_eq_false closed] at h
    | _ => exact h

/-- Every operation on a session that stays open leaves the youngest of those that have ended. -/
theorem remembers_apply (ready : s.openCascade.Ready)
    (h : s.Remembers (old ++ s.notices.toList)) (isOpen : (s.apply o).isClosed = false) :
    (s.apply o).Remembers (old ++ s.taken o ++ (s.apply o).notices.toList) := by
  cases ht : s.turn? o with
  | some t =>
    obtain ⟨ms, c⟩ := t
    rw [taken_of_turn? ht, List.append_nil]
    exact remembers_turn ready h ht
  | none =>
    have limits : (s.apply o).limits = s.limits :=
      (path_history ready.orderly.sound o).passes_limits
    rw [s.apply_eq, ht] at isOpen limits ⊢
    have stays : ¬ ∃ reason, o = .close reason ∧ s.isClosed = false := by
      rintro ⟨reason, rfl, before⟩
      simp [idle, close, before, notify] at isOpen
    obtain ⟨-, -, -, archive, told⟩ := idle_frame stays
    have same : (s.idle o).Remembers (old ++ s.notices.toList ++ []) :=
      h.of_frame rfl archive limits
    rwa [List.append_assoc, told, ← List.append_assoc]

theorem isClosed_of_applyAll {os : List Operation} (h : (s.applyAll os).isClosed = false) :
    s.isClosed = false := by
  induction os generalizing s with
  | nil => exact h
  | cons o rest ih => exact isClosed_of_apply (ih h)

theorem remembers_applyAll (ready : s.openCascade.Ready)
    (h : s.Remembers (old ++ s.notices.toList)) (os : List Operation)
    (isOpen : (s.applyAll os).isClosed = false) :
    (s.applyAll os).Remembers (old ++ s.logOf os) := by
  induction os generalizing s old with
  | nil => exact h
  | cons o rest ih =>
    rw [logOf, ← List.append_assoc]
    exact ih (ready_apply ready o)
      (remembers_apply ready h (isClosed_of_applyAll (s := s.apply o) isOpen)) isOpen

/-! ## The youngest and the latest -/

/-- The youngest of several instances, as many as wanted. -/
def IsAmongYoungest (ids : List InstanceId) (n : Nat) (id : InstanceId) : Prop :=
  id ∈ ids ∧ ids.countP (fun k => id.number < k.number) < n

/-- What is remembered are the youngest. -/
theorem Remembers.isSome_iff (h : s.Remembers log) (once : (endedOf log).Nodup) (id : InstanceId) :
    (s.archive.get? id).isSome ↔ IsAmongYoungest (endedOf log) s.limits.archiveSize id := by
  obtain ⟨all, ended, kept⟩ := h
  have keys : all.keys.Perm (endedOf log) := by
    refine (List.perm_ext_iff_of_nodup all.nodup_keys once).2 fun k => ?_
    rw [Table.mem_keys, ← ended, Option.isSome_iff_exists]
  have younger : all.keys.countP (fun k => compare id k == .lt) =
      (endedOf log).countP fun k => id.number < k.number := by
    rw [keys.countP_eq]
    refine List.countP_congr fun k _ => ?_
    simp [Id.compare_eq, Nat.compare_eq_lt]
  rw [kept, Option.isSome_iff_exists, IsAmongYoungest, ← ended, Option.isSome_iff_exists, ← younger]
  simp only [Table.get?_keepLast, exists_and_right]

/-- The youngest are the last ones just if they are younger than all that stand before. -/
theorem isAmongYoungest_iff_mem_rtake {ids : List InstanceId} (once : ids.Nodup) (n : Nat) :
    (∀ id, IsAmongYoungest ids n id ↔ id ∈ ids.rtake n) ↔
      ∀ k ∈ ids.rdrop n, ∀ id ∈ ids.rtake n, k.number < id.number := by
  have parts : ids = ids.rdrop n ++ ids.rtake n := (List.take_append_drop ..).symm
  have apart := List.disjoint_of_nodup_append (parts ▸ once)
  constructor
  · intro law k earlier id later
    by_contra behind
    -- Whoever is younger than the one that stands before is younger than the one behind it.
    have few := ((law id).2 later).2
    have many : n ≤ ids.countP fun j => k.number < j.number := by
      by_contra fewer
      refine apart earlier ((law k).1 ⟨?_, Nat.lt_of_not_le fewer⟩)
      rw [parts]
      exact List.mem_append_left _ earlier
    have mono : ids.countP (fun j => k.number < j.number) ≤
        ids.countP fun j => id.number < j.number := by
      refine List.countP_mono_left fun j _ younger => ?_
      simp only [decide_eq_true_eq] at younger ⊢
      omega
    omega
  · intro order id
    have count : ids.countP (fun j => id.number < j.number) =
        (ids.rdrop n).countP (fun j => id.number < j.number) +
          (ids.rtake n).countP fun j => id.number < j.number := by
      rw [← List.countP_append, ← parts]
    constructor
    · rintro ⟨mem, few⟩
      rw [parts, List.mem_append] at mem
      refine mem.resolve_left fun earlier => ?_
      -- All of the last ones are younger than one that stands before, and there are enough.
      have all : (ids.rtake n).countP (fun j => id.number < j.number) = (ids.rtake n).length :=
        List.countP_eq_length.2 fun j later => by simpa using order id earlier j later
      have enough : (ids.rtake n).length = n := by
        have := List.length_pos_of_mem earlier
        simp only [List.rdrop, List.length_take, List.rtake, List.length_drop] at this ⊢
        omega
      omega
    · intro later
      have none : (ids.rdrop n).countP (fun j => id.number < j.number) = 0 := by
        refine List.countP_eq_zero.2 fun j earlier => ?_
        have := order j earlier id later
        simp only [decide_eq_true_eq]
        omega
      have fewer : (ids.rtake n).countP (fun j => id.number < j.number) < (ids.rtake n).length :=
        List.countP_lt_length_iff.2 ⟨id, later, by simp⟩
      have bound : (ids.rtake n).length ≤ n := by
        simp only [List.rtake, List.length_drop]
        omega
      exact ⟨parts ▸ List.mem_append_right _ later, by omega⟩

theorem remembers_new (name : String) (library : FlowLibrary) (limits : Limits)
    (context : Params) : (new name library limits context).Remembers [] :=
  ⟨∅, fun _ => ⟨nofun, nofun⟩, Table.ext List.drop_nil.symm⟩

/-- In every run of a session that has not been closed the instances that are remembered are the
youngest of those that have ended, and one that has ended is found again just if it is among these.
They are the latest that have ended if and only if all of the latest are younger than all that ended
before them. -/
theorem latest_remembered_iff (name : String) (library : FlowLibrary) (limits : Limits)
    (context : Params) (os : List Operation)
    (isOpen : ((new name library limits context).applyAll os).isClosed = false) :
    let s₀ := new name library limits context
    let s := s₀.applyAll os
    let ended := endedOf (s₀.logOf os)
    ended.Nodup ∧
      (∀ id, (s.archive.get? id).isSome ↔ IsAmongYoungest ended limits.archiveSize id) ∧
      (∀ id ∈ ended, (∃ i, s.find? id = some i ∧ i.id = id ∧ i.phase.isLive = false) ↔
        IsAmongYoungest ended limits.archiveSize id) ∧
      ((∀ id, (s.archive.get? id).isSome ↔ id ∈ ended.rtake limits.archiveSize) ↔
        ∀ k ∈ ended.rdrop limits.archiveSize, ∀ id ∈ ended.rtake limits.archiveSize,
          k.number < id.number) := by
  intro s₀ s ended
  have ready₀ : s₀.openCascade.Ready := ready_new name library limits context
  have sound : s.Sound := (ready_applyAll ready₀ os).orderly.sound
  obtain ⟨ns, told, -, entered⟩ := books_applyAll ready₀ os
  obtain rfl : s₀.logOf os = ns := told
  have books := entered [] [] _ (books_new name library limits context)
  rw [List.nil_append] at books
  -- By the books nobody ends twice.
  have once : ended.Nodup := books.nodup_endedOf
  have remembers : s.Remembers (s₀.logOf os) :=
    have new : s₀.Remembers ([] ++ s₀.notices.toList) := remembers_new name library limits context
    remembers_applyAll ready₀ new os isOpen
  have bound : s.limits = limits :=
    (path_historyOf (sound_new name library limits context) os).passes_limits
  have youngest (id : InstanceId) :
      (s.archive.get? id).isSome ↔ IsAmongYoungest ended limits.archiveSize id :=
    bound ▸ remembers.isSome_iff once id
  refine ⟨once, youngest, fun id mem => ?_, ?_⟩
  · have gone := books.not_live_of_ended mem
    rw [← youngest, find?, gone, Option.none_or, Option.isSome_iff_exists]
    refine exists_congr fun i => ⟨And.left, fun hi => ?_⟩
    obtain ⟨same, dead, -⟩ := sound.archive id i hi
    exact ⟨hi, same, dead⟩
  · simp only [youngest]
    exact isAmongYoungest_iff_mem_rtake once _

/-- A flow that waits for the user to say something, and one that is done at once. -/
def unhurriedFlows : List FlowDefinition :=
  [⟨"main", [], "", [.expect ⟨EventName.userSaid, ∅, ∅, false⟩]⟩, ⟨"quick", [], "", []⟩]

/-- The second flow begins and ends while the first one waits, and then the first one ends. -/
def unhurriedRun : List Operation :=
  [.start ["main"], .startFlow "quick" ∅, .submit (Event.userSaid "x")]

/-- If two instances may be remembered, the order in which they have ended does not matter. -/
theorem latest_remembered_iff_unhurried :
    ∃ library, FlowLibrary.ofDefinitions Vocabulary.standard unhurriedFlows = .ok library ∧
      let s₀ := new "session" library ⟨10, 10, 2⟩ ∅
      let s := s₀.applyAll unhurriedRun
      s.isClosed = false ∧ endedOf (s₀.logOf unhurriedRun) = [⟨2⟩, ⟨1⟩] ∧
        ∀ id, (s.archive.get? id).isSome ↔ id ∈ (endedOf (s₀.logOf unhurriedRun)).rtake 2 := by
  have run : (FlowLibrary.ofDefinitions Vocabulary.standard unhurriedFlows).toOption.any
      (fun library =>
        let s₀ := new "session" library ⟨10, 10, 2⟩ ∅
        !(s₀.applyAll unhurriedRun).isClosed &&
          endedOf (s₀.logOf unhurriedRun) = [⟨2⟩, ⟨1⟩]) = true := by decide +kernel
  obtain ⟨library, hlib, found⟩ := exists_of_toOption_any run
  simp only [Bool.and_eq_true, decide_eq_true_eq, Bool.not_eq_true'] at found
  obtain ⟨isOpen, ended⟩ := found
  have law := (latest_remembered_iff "session" library ⟨10, 10, 2⟩ ∅ unhurriedRun isOpen).2.2.2
  refine ⟨library, hlib, isOpen, ended, law.2 ?_⟩
  rw [ended]
  decide

/-- If one instance may be remembered, the one that has ended first and begun last is still
remembered when the other one ends, and that one is forgotten at once. -/
theorem latest_forgotten :
    ∃ library, FlowLibrary.ofDefinitions Vocabulary.standard unhurriedFlows = .ok library ∧
      let s₀ := new "session" library ⟨10, 10, 1⟩ ∅
      let s := s₀.applyAll unhurriedRun
      s.isClosed = false ∧ (endedOf (s₀.logOf unhurriedRun)).rtake 1 = [⟨1⟩] ∧
        (s.archive.get? ⟨2⟩).isSome ∧ s.find? ⟨1⟩ = none := by
  have run : (FlowLibrary.ofDefinitions Vocabulary.standard unhurriedFlows).toOption.any
      (fun library =>
        let s₀ := new "session" library ⟨10, 10, 1⟩ ∅
        let s := s₀.applyAll unhurriedRun
        !s.isClosed && (endedOf (s₀.logOf unhurriedRun)).rtake 1 = [⟨1⟩] &&
          (s.archive.get? ⟨2⟩).isSome && (s.find? ⟨1⟩).isNone) = true := by decide +kernel
  obtain ⟨library, hlib, found⟩ := exists_of_toOption_any run
  simp only [Bool.and_eq_true, decide_eq_true_eq, Bool.not_eq_true',
    Option.isNone_iff_eq_none] at found
  obtain ⟨⟨⟨isOpen, latest⟩, remembered⟩, forgotten⟩ := found
  exact ⟨library, hlib, isOpen, latest, remembered, forgotten⟩

end Session

end Dialogue
