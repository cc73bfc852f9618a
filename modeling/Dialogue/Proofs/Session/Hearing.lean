import Dialogue.Proofs.Session.Conservation

/-!
# Who is heard

Between two deliveries any number of instances may send events, and some of these are meant for the
user. Of those that say something to the user one alone is heard: the deepest one, and of several
that are equally deep the oldest. All that it has said is kept, in the order in which it was said,
among everything that is not meant for the user. What the others have said is dropped, gets no
number, and is noted with the name of who was heard instead.

The depth of an instance is settled when it begins, and the log tells it. It is noted with each
event that the instance sends, so it is known who is to be heard even if some of the speakers have
ended meanwhile.

## Main definitions

* `Cascade.sayer?`, `Cascade.SpeaksFirst` — who says something to the user, and who is to be heard
* `Cascade.deferral?`, `Cascade.keptFor` — what is dropped, and what is kept
* `Cascade.Arbitrates` — how it is settled who is heard
* `Session.settlements`, `Session.Airs` — the states of a turn in which this is settled, and what is
  said and delivered in the turn
* `depthsOf`, `Cascade.Measured` — the depths that a log tells of an instance, and that those noted
  in a state are told

## Main results

* `Cascade.settle_eq` — all that is changed when it is settled who is heard
* `Session.measured_apply` — the depths that are noted are those that the log tells
* `Session.deepest_speaker_heard` — the deepest speaker is heard in every run, and nobody else
-/

namespace Dialogue

/-! ## Who comes first -/

theorem comesBefore_iff {a b : InstanceId × Nat} :
    comesBefore a b = true ↔ b.2 < a.2 ∨ a.2 = b.2 ∧ a.1.number < b.1.number := by
  simp [comesBefore, Id.compare_eq, Nat.compare_eq_lt]

theorem not_comesBefore_self (s : InstanceId × Nat) : comesBefore s s = false := by
  rw [Bool.eq_false_iff, ne_eq, comesBefore_iff]
  omega

/-- Whoever does not come before the first of two does not come before the second either, if that
one is not behind. -/
theorem not_comesBefore_trans {s t u : InstanceId × Nat} (hut : comesBefore u t = false)
    (hts : comesBefore t s = false) : comesBefore u s = false := by
  rw [Bool.eq_false_iff, ne_eq, comesBefore_iff] at *
  omega

/-- Of several speakers one is heard that no other one comes before. -/
theorem heard?_spec (ss : List (InstanceId × Nat)) :
    match heard? ss with
    | none => ss = []
    | some w => w ∈ ss ∧ ∀ s ∈ ss, comesBefore s w = false := by
  induction ss with
  | nil => rfl
  | cons s rest ih =>
    unfold heard?
    cases hr : heard? rest with
    | none =>
      rw [hr] at ih
      obtain rfl : rest = [] := ih
      exact ⟨List.mem_cons_self, List.forall_mem_singleton.2 (not_comesBefore_self s)⟩
    | some t =>
      rw [hr] at ih
      obtain ⟨mem, best⟩ := ih
      dsimp only
      split
      -- The first one comes before the best of the others, or it does not.
      · next before =>
        refine ⟨List.mem_cons_of_mem s mem, List.forall_mem_cons.2 ⟨?_, best⟩⟩
        rw [Bool.eq_false_iff, ne_eq, comesBefore_iff]
        rw [comesBefore_iff] at before
        omega
      · next behind =>
        have behind : comesBefore t s = false := by simpa using behind
        exact ⟨List.mem_cons_self, List.forall_mem_cons.2 ⟨not_comesBefore_self s,
          fun u hu => not_comesBefore_trans (best u hu) behind⟩⟩

example : heard? [(⟨1⟩, 0), (⟨3⟩, 2), (⟨2⟩, 2)] = some (⟨2⟩, 2) := by decide

namespace Cascade

/-- The instance that has said something to the user by sending an event, and its depth; none if
the event is not meant for the user, or is reported by the session itself. -/
def sayer? (c : Cascade) (p : Produced) : Option (InstanceId × Nat) :=
  if c.library.vocabulary.isOutput p.event.name then p.speaker else none

/-- An instance is to be heard: it has said something to the user, and all that have are less deep,
or as deep and not older. -/
def SpeaksFirst (c : Cascade) (w : InstanceId) : Prop :=
  ∃ depth, (∃ p ∈ c.produced.toList, c.sayer? p = some (w, depth)) ∧
    ∀ p ∈ c.produced.toList, ∀ id d, c.sayer? p = some (id, d) →
      d < depth ∨ d = depth ∧ w.number ≤ id.number

/-- How it is noted that an event is dropped because a certain instance is heard. There is nothing
to note if the event is kept. -/
def deferral? (c : Cascade) (winner : Option InstanceId) (p : Produced) : Option Notice :=
  match c.sayer? p, winner with
  | some (id, _), some w => if id = w then none else some (.botActionDeferred id p.event.name w)
  | _, _ => none

/-- The events that are kept if a certain instance is heard. -/
def keptFor (c : Cascade) (winner : Option InstanceId) : List Produced :=
  c.produced.toList.filter fun p => (c.deferral? winner p).isNone

/-- The events of a list, with the numbers that follow a number. -/
def numberedFrom (n : Nat) (ps : List Produced) : List Event :=
  ps.mapIdx fun k p => p.event.stamped (n + k + 1)

/-- A cascade after events have been accepted with their numbers, and notices have been written. -/
def accept (c : Cascade) (es : List Event) (ns : List Notice) : Cascade :=
  { c with
    sequenced := c.sequenced + es.length
    emitted := c.emitted ++ (es.filter fun e => c.library.vocabulary.isOutput e.name).toArray
    notices := c.notices ++ ns.toArray }

variable {c : Cascade} {es : List Event} {ns : List Notice}

theorem numberedFrom_cons (n : Nat) (p : Produced) (ps : List Produced) :
    numberedFrom n (p :: ps) = p.event.stamped (n + 1) :: numberedFrom (n + 1) ps := by
  simp only [numberedFrom, List.mapIdx_cons, Nat.add_assoc, Nat.add_comm 1]

theorem accept_nil (c : Cascade) : c.accept [] [] = c := by
  simp [accept]

theorem accept_accept (es es' : List Event) (ns ns' : List Notice) :
    (c.accept es ns).accept es' ns' = c.accept (es ++ es') (ns ++ ns') := by
  simp [accept, Nat.add_assoc, Array.append_assoc]

/-! ## What is kept -/

/-- What is settled about one event. -/
theorem settleOne_eq (winner : Option (InstanceId × Nat)) (kept : List Event) (p : Produced) :
    settleOne winner (c, kept) p =
      match c.deferral? (winner.map Prod.fst) p with
      | some n => (c.accept [] [n], kept)
      | none => (c.accept [p.event.stamped (c.sequenced + 1)] [],
          p.event.stamped (c.sequenced + 1) :: kept) := by
  unfold settleOne deferral? sayer?
  cases hv : c.library.vocabulary.isOutput p.event.name with
  | false => simp [hv, accept, stamp, Event.stamped]
  | true =>
    cases winner with
    | none => cases p.speaker <;> simp [hv, accept, stamp, Event.stamped]
    | some w =>
      cases p.speaker with
      | none => simp [hv, accept, stamp, Event.stamped]
      | some s => by_cases hw : s.1 = w.1 <;> simp [hv, hw, accept, notify, stamp, Event.stamped]

/-- What is settled about several events, one after the other. -/
theorem foldl_settleOne_eq (winner : Option (InstanceId × Nat)) (ps : List Produced)
    (c : Cascade) (kept : List Event) :
    let es := numberedFrom c.sequenced
      (ps.filter fun p => (c.deferral? (winner.map Prod.fst) p).isNone)
    ps.foldl (settleOne winner) (c, kept) =
      (c.accept es (ps.filterMap (c.deferral? (winner.map Prod.fst))), es.reverse ++ kept) := by
  induction ps generalizing c kept with
  | nil => exact Prod.ext c.accept_nil.symm rfl
  | cons p rest ih =>
    rw [List.foldl_cons, settleOne_eq]
    -- Whether an event is kept does not depend on what has been accepted before.
    have same (es : List Event) (ns : List Notice) : (c.accept es ns).deferral? = c.deferral? := rfl
    have count (es : List Event) (ns : List Notice) :
        (c.accept es ns).sequenced = c.sequenced + es.length := rfl
    cases hp : c.deferral? (winner.map Prod.fst) p with
    | some n => simp [ih, same, count, hp, accept_accept]
    | none => simp [ih, same, count, hp, accept_accept, numberedFrom_cons]

/-- The instance that is heard, if anybody says something to the user. -/
def winner? (c : Cascade) : Option InstanceId :=
  (heard? (c.produced.toList.filterMap c.sayer?)).map Prod.fst

/-- All that is changed when it is settled who is heard: what is kept is queued under the next
numbers, what is said to the user is emitted, and what is dropped is noted. -/
theorem settle_eq (c : Cascade) :
    c.settled = numberedFrom c.sequenced (c.keptFor c.winner?) ∧
      c.settle = { c.accept c.settled (c.produced.toList.filterMap (c.deferral? c.winner?)) with
        produced := #[]
        queue := c.queue ++ c.settled } := by
  have speakers : (c.produced.toList.filter fun p =>
      c.library.vocabulary.isOutput p.event.name).filterMap Produced.speaker =
        c.produced.toList.filterMap c.sayer? := List.filterMap_filter ..
  have whole := foldl_settleOne_eq (heard? (c.produced.toList.filterMap c.sayer?))
    c.produced.toList { c with produced := #[] } []
  have settled_eq : c.settled = numberedFrom c.sequenced (c.keptFor c.winner?) := by
    unfold settled
    simp only [speakers, whole, List.append_nil, List.reverse_reverse]
    rfl
  refine ⟨settled_eq, ?_⟩
  unfold settle
  simp only [speakers, whole, List.append_nil, List.reverse_reverse]
  rw [settled_eq]
  rfl

theorem winner?_eq_none : c.winner? = none ↔ ∀ p ∈ c.produced.toList, c.sayer? p = none := by
  have spec := heard?_spec (c.produced.toList.filterMap c.sayer?)
  unfold winner?
  rw [Option.map_eq_none_iff, ← List.filterMap_eq_nil_iff]
  cases hw : heard? (c.produced.toList.filterMap c.sayer?) with
  | none => exact iff_of_true rfl (by rwa [hw] at spec)
  | some w =>
    rw [hw] at spec
    exact iff_of_false (Option.some_ne_none w) (List.ne_nil_of_mem spec.1)

theorem speaksFirst_of_winner? {w : InstanceId} (h : c.winner? = some w) : c.SpeaksFirst w := by
  obtain ⟨⟨w, depth⟩, hw, rfl⟩ := Option.map_eq_some_iff.1 h
  have spec := heard?_spec (c.produced.toList.filterMap c.sayer?)
  rw [hw] at spec
  obtain ⟨mem, best⟩ := spec
  refine ⟨depth, List.mem_filterMap.1 mem, fun p hp id d said => ?_⟩
  have behind := best (id, d) (List.mem_filterMap.2 ⟨p, hp, said⟩)
  rw [Bool.eq_false_iff, ne_eq, comesBefore_iff] at behind
  dsimp only at behind ⊢
  omega

/-- How it is settled who is heard. -/
structure Arbitrates (c : Cascade) (winner : Option InstanceId) : Prop where
  /-- Somebody is heard unless nobody has said anything to the user. -/
  nobody : winner = none ↔ ∀ p ∈ c.produced.toList, c.sayer? p = none
  /-- Who is heard is the one that is to be heard. -/
  first : ∀ w, winner = some w → c.SpeaksFirst w
  /-- Of what instances have said to the user all is kept that the winner has said, in order, and
  nothing else. -/
  heard : ((c.keptFor winner).filter fun p => (c.sayer? p).isSome) =
    c.produced.toList.filter fun p => (c.sayer? p).any fun s => some s.1 = winner
  /-- All the rest is kept, in order. -/
  rest : ((c.keptFor winner).filter fun p => (c.sayer? p).isNone) =
    c.produced.toList.filter fun p => (c.sayer? p).isNone
  /-- What is kept gets the next numbers. -/
  settled : c.settled = numberedFrom c.sequenced (c.keptFor winner)
  /-- Nothing else is changed. -/
  settle : c.settle =
    { c.accept c.settled (c.produced.toList.filterMap (c.deferral? winner)) with
      produced := #[]
      queue := c.queue ++ c.settled }

/-- Whenever it is settled who is heard, this is the deepest speaker. -/
theorem arbitrates (c : Cascade) : c.Arbitrates c.winner? := by
  obtain ⟨settled, settle⟩ := c.settle_eq
  refine ⟨winner?_eq_none, fun w => speaksFirst_of_winner?, ?_, ?_, settled, settle⟩
  · rw [keptFor, List.filter_filter]
    refine List.filter_congr fun p hp => ?_
    cases hs : c.sayer? p with
    | none => rfl
    | some s =>
      cases hw : c.winner? with
      | none =>
        rw [winner?_eq_none.1 hw p hp] at hs
        cases hs
      | some w =>
        by_cases same : s.1 = w <;> simp [deferral?, hs, same]
  · rw [keptFor, List.filter_filter]
    refine List.filter_congr fun p _ => ?_
    cases hs : c.sayer? p with
    | none => simp [deferral?, hs]
    | some s => rfl

/-! ## Settlements of a turn -/

/-- The states in which it is settled who is heard until the queue is empty. -/
def drainSettlements : Nat → Cascade → List Cascade
  | budget, c =>
    match c.queue with
    | [] => []
    | e :: rest =>
      match budget with
      | 0 => []
      | budget + 1 =>
        ({ c with queue := rest } : Cascade).deliver e ::
          drainSettlements budget (({ c with queue := rest } : Cascade).deliver e).settle

/-- The states in which it is settled who is heard in the rest of a turn. -/
def runSettlements (c : Cascade) : List Cascade :=
  c :: drainSettlements c.limits.cascadeSteps c.settle

/-- It is settled who is heard, the next event is delivered, and what follows from that is to be
settled. -/
def Leads (c c' : Cascade) : Prop :=
  ∃ e rest, c.settle.queue = e :: rest ∧
    c' = ({ c.settle with queue := rest } : Cascade).deliver e

theorem drainNumbered_eq : ∀ (budget : Nat) (c : Cascade),
    drainNumbered budget c = (drainSettlements budget c).flatMap settled
  | budget, c => by
    unfold drainNumbered drainSettlements
    cases c.queue with
    | nil => rfl
    | cons e rest =>
      cases budget with
      | zero => rfl
      | succ budget => exact congrArg (_ ++ ·) (drainNumbered_eq budget _)

theorem runNumbered_eq (c : Cascade) : c.runNumbered = c.runSettlements.flatMap settled :=
  congrArg (_ ++ ·) (drainNumbered_eq ..)

/-- Between two settlements one event is delivered. -/
theorem length_drainSettlements : ∀ (budget : Nat) (c : Cascade),
    (drainSettlements budget c).length = (Moment.deliveries (drainHistory budget c)).length
  | budget, c => by
    unfold drainSettlements drainHistory
    cases c.queue with
    | nil => rfl
    | cons e rest =>
      cases budget with
      | zero => rfl
      | succ budget =>
        let c₁ : Cascade := { c with queue := rest }
        obtain ⟨ms, history, quiet, -⟩ := c₁.deliverHistory_eq e
        have delivered : Moment.deliveries (c₁.deliverHistory e) = [e] := by
          rw [history]
          exact congrArg (e :: ·) quiet
        rw [List.length_cons, length_drainSettlements budget, Moment.deliveries_append, delivered,
          List.length_append, List.length_singleton, Nat.add_comm]

theorem isChain_drainSettlements : ∀ (budget : Nat) (c : Cascade),
    (c :: drainSettlements budget c.settle).IsChain Leads
  | budget, c => by
    unfold drainSettlements
    cases hq : c.settle.queue with
    | nil => exact .singleton c
    | cons e rest =>
      cases budget with
      | zero => exact .singleton c
      | succ budget => exact .cons_cons ⟨e, rest, hq, rfl⟩ (isChain_drainSettlements budget _)

/-- What is kept and meant for the user. -/
def utterances (c : Cascade) : List Event :=
  c.settled.filter fun e => c.library.vocabulary.isOutput e.name

theorem emitted_settle (c : Cascade) :
    c.settle.emitted.toList = c.emitted.toList ++ c.utterances := by
  rw [c.settle_eq.2]
  exact Array.toList_append

/-- What is said in a turn is what is said at its settlements. -/
theorem emitted_drain : ∀ (budget : Nat) {c : Cascade}, c.Ready →
    (drain budget c).emitted.toList =
      c.emitted.toList ++ (drainSettlements budget c).flatMap utterances
  | budget, c, h => by
    unfold drain drainSettlements
    cases c.queue with
    | nil => exact (List.append_nil _).symm
    | cons e rest =>
      cases budget with
      | zero => exact (List.append_nil _).symm
      | succ budget =>
        let c₁ : Cascade := { c with queue := rest }
        have ledger : (c₁.deliver e).ledger = c.ledger :=
          (path_deliver (c := c₁) h.orderly.sound e).ledger.1
        have unsaid : (c₁.deliver e).emitted = c.emitted := congrArg (fun l => l.2.1) ledger
        have more := emitted_drain budget ((h.pop rest).deliver e)
        rw [emitted_settle, unsaid, List.append_assoc] at more
        exact more

end Cascade

/-! ## The depth of an instance -/

/-- The depth that a notice tells of an instance. -/
def Notice.depth? (id : InstanceId) : Notice → Option Nat
  | .flowStarted k _ depth => if k = id then some depth else none
  | _ => none

/-- The depths that a log tells of an instance. -/
def depthsOf (log : List Notice) (id : InstanceId) : List Nat := log.filterMap (Notice.depth? id)

theorem depthsOf_append (log ns : List Notice) (id : InstanceId) :
    depthsOf (log ++ ns) id = depthsOf log id ++ depthsOf ns id :=
  List.filterMap_append ..

/-- The depth of an instance is told when it begins. -/
theorem depthsOf_lifeOf (log : List Notice) (id : InstanceId) :
    depthsOf (lifeOf log id) id = depthsOf log id := by
  rw [depthsOf, lifeOf, List.filterMap_filter]
  refine List.filterMap_congr fun n _ => ?_
  cases n with
  | flowStarted k _ _ => by_cases hk : k = id <;> simp [Notice.isAbout, Notice.depth?, hk]
  | flowCompleted | flowAborted => simp [Notice.depth?]
  | _ => rfl

theorem depthsOf_notices (id : InstanceId) (name flow : String) (depth : Nat) (f : Fate) :
    depthsOf (f.notices id name flow depth) id = [depth] := by
  cases f <;> simp [depthsOf, Fate.notices, Fate.ending?, Notice.depth?]

/-- As long as the books are right, one depth is told of an instance. -/
theorem Session.Books.depthsOf_eq {s : Session} {log : List Notice} {failed : List Failure}
    {dropped : InstanceId → Prop} (h : s.Books log failed dropped) {id : InstanceId} {depth : Nat}
    (told : depth ∈ depthsOf log id) : depthsOf log id = [depth] := by
  by_cases begun : 1 ≤ id.number ∧ id.number ≤ s.created
  · obtain ⟨fate, recorded⟩ := h.created id begun.1 begun.2
    obtain ⟨name, flow, depth', -, life, -⟩ := recorded.told
    have one : depthsOf log id = [depth'] := by
      rw [← depthsOf_lifeOf, life, depthsOf_notices]
    rw [one] at told ⊢
    rw [List.mem_singleton.1 told]
  · rw [← depthsOf_lifeOf, h.unborn id begun] at told
    cases told

namespace Cascade

variable {c c' : Cascade} {log ns : List Notice}

/-- The depths of the live instances, and those that are noted with events, are told in a log. -/
structure Measured (log : List Notice) (c : Cascade) : Prop where
  live : ∀ id i, c.instances.get? id = some i → i.depth ∈ depthsOf log id
  speakers : ∀ p ∈ c.produced.toList, ∀ id depth, p.speaker = some (id, depth) →
    depth ∈ depthsOf log id

/-- A log may go on. -/
theorem Measured.append (h : Measured log c) (ns : List Notice) : Measured (log ++ ns) c where
  live id i hi := depthsOf_append log ns id ▸ List.mem_append_left _ (h.live id i hi)
  speakers p hp id depth hs :=
    depthsOf_append log ns id ▸ List.mem_append_left _ (h.speakers p hp id depth hs)

/-- No instance begins, and no instance sends an event. -/
theorem Measured.of_survivors (h : Measured log c) (sv : c.toSession.Survivors c'.toSession)
    (produced : ∀ p ∈ c'.produced.toList, p ∈ c.produced.toList ∨ p.speaker = none) :
    Measured log c' where
  live id i' hi' := by
    obtain ⟨i, hi, left⟩ := sv id i' hi'
    exact left.depth ▸ h.live id i hi
  speakers p hp id depth hs := by
    rcases produced p hp with hp | silent
    · exact h.speakers p hp id depth hs
    · rw [silent] at hs
      cases hs

/-- An instance ends, and that is reported. -/
theorem Measured.ends {id : InstanceId} (h : Measured log c) (e : c.Ends id c') :
    Measured log c' := by
  obtain ⟨event, -, -, produced⟩ := e.announced
  refine h.of_survivors e.survivors fun p hp => ?_
  rw [produced, Array.toList_push, List.mem_append, List.mem_singleton] at hp
  rcases hp with hp | rfl
  · exact .inl hp
  · exact .inr rfl

/-- An instance begins, and its depth is told. -/
theorem measured_spawn {old : List Notice} {flow args parent isDetached} {id : InstanceId}
    (spawned : c.spawn flow args parent isDetached = some (id, c'))
    (h : Measured (old ++ c.notices.toList) c) : Measured (old ++ c'.notices.toList) c' := by
  obtain ⟨compiled, depth, instances, -, -, -, hget, rfl⟩ := begins_of_spawn spawned
  have later := h.append [.flowStarted id flow depth]
  dsimp only
  rw [Array.toList_push, ← List.append_assoc]
  refine ⟨fun k i hi => ?_, fun p hp k d hs => ?_⟩
  · have hi := (hget k).symm.trans hi
    split at hi
    · next hk =>
      obtain rfl := Option.some.inj hi
      rw [hk, depthsOf_append]
      exact List.mem_append_right _ (by simp [depthsOf, Notice.depth?, Instance.begin])
    · obtain ⟨j, hj, rfl⟩ := Option.map_eq_some_iff.1 hi
      have told := later.live k j hj
      split <;> exact told
  · rcases List.mem_append.1 (Array.toList_push ▸ hp) with hp | hp
    · exact later.speakers p hp k d hs
    · obtain rfl := List.mem_singleton.1 hp
      cases hs

/-- Whatever a session does at a time, the depth of whoever begins is told, and the depth of whoever
sends an event is noted with it. -/
theorem Act.measured {old : List Notice} (a : c.Act c') (h : Measured (old ++ c.notices.toList) c) :
    Measured (old ++ c'.notices.toList) c' := by
  obtain ⟨ns, fs, adds⟩ := a.exists_adds
  -- What has been told is told for good, so only what changes has to be looked at.
  have later : Measured (old ++ c'.notices.toList) c := by
    rw [adds.notices, ← List.append_assoc]
    exact h.append ns
  cases a with
  | launch spawned => exact measured_spawn spawned h
  | start _ _ _ _ spawned => exact measured_spawn spawned h
  | conclude live awake => exact later.ends (ends_conclude live rfl awake)
  | abort live => exact later.ends (ends_abort live rfl _)
  | @fail i error live =>
    let c₁ : Cascade := { c with failures := c.failures.push ⟨i.id, i.flowName, error⟩ }
    have reported : Measured _ c₁ := ⟨later.live, later.speakers⟩
    exact reported.ends (ends_abort (c := c₁) live rfl error)
  | @change id i i' live flow depth timers =>
    refine ⟨fun k j hj => ?_, later.speakers⟩
    rw [Table.get?_insert] at hj
    split at hj
    · next same =>
      obtain rfl := Option.some.inj hj
      exact depth ▸ same ▸ later.live id i live
    · exact later.live k j hj
  | @send id i event exprs live has params =>
    refine ⟨later.live, fun p hp k d hs => ?_⟩
    have hp : p ∈ (c.produced.push ⟨some (id, i.depth), Event.new event params⟩).toList := hp
    rw [Array.toList_push, List.mem_append, List.mem_singleton] at hp
    rcases hp with hp | rfl
    · exact later.speakers p hp k d hs
    · obtain ⟨rfl, rfl⟩ := Prod.mk.inj (Option.some.inj hs)
      exact later.live id i live
  | _ => exact ⟨later.live, later.speakers⟩

theorem Acts.measured {old : List Notice} (a : Acts c c')
    (h : Measured (old ++ c.notices.toList) c) : Measured (old ++ c'.notices.toList) c' := by
  induction a with
  | refl => exact h
  | tail _ last ih => exact last.measured ih

/-- Nothing happens to the instances, and no instance sends an event. -/
theorem Quiet.measured {old : List Notice} (q : c.Quiet c')
    (produced : ∀ p ∈ c'.produced.toList, p ∈ c.produced.toList)
    (h : Measured (old ++ c.notices.toList) c) : Measured (old ++ c'.notices.toList) c' := by
  obtain ⟨ns, notices, -⟩ := q.notices
  rw [notices, ← List.append_assoc]
  exact (h.append ns).of_survivors (.of_eq q.aside.instances) fun p hp => .inl (produced p hp)

theorem measured_settle {old : List Notice} (h : Measured (old ++ c.notices.toList) c) :
    Measured (old ++ c.settle.notices.toList) c.settle := by
  refine c.quiet_settle.1.measured (fun p hp => ?_) h
  rw [(keeps_settle c).2] at hp
  cases hp

/-- The depths are told at all settlements of a turn, and at its end. -/
theorem measured_drain {old : List Notice} : ∀ (budget : Nat) {c : Cascade}, c.Ready →
    Measured (old ++ c.notices.toList) c →
      Measured (old ++ (drain budget c).notices.toList) (drain budget c) ∧
        ∀ d ∈ drainSettlements budget c, Measured (old ++ (drain budget c).notices.toList) d
  | budget, c, ready, h => by
    unfold drain drainSettlements
    cases c.queue with
    | nil => exact ⟨h, List.forall_mem_nil _⟩
    | cons e rest =>
      cases budget with
      | zero => exact ⟨⟨h.live, h.speakers⟩, List.forall_mem_nil _⟩
      | succ budget =>
        let c₁ : Cascade := { c with queue := rest }
        have popped : Measured (old ++ c₁.notices.toList) c₁ := ⟨h.live, h.speakers⟩
        have delivered := (acts_deliver (ready.pop rest).orderly.sound e).measured popped
        obtain ⟨whole, later⟩ := measured_drain budget ((ready.pop rest).deliver e)
          (measured_settle delivered)
        refine ⟨whole, List.forall_mem_cons.2 ⟨?_, later⟩⟩
        -- What has been told by the time of the settlement is part of what is told in the end.
        obtain ⟨ns, settled, -⟩ := (c₁.deliver e).quiet_settle.1.notices
        obtain ⟨⟨ns', _, tells, -⟩, -⟩ := drain_tells budget ((ready.pop rest).deliver e)
        rw [tells.notices, settled, List.append_assoc, ← List.append_assoc]
        exact delivered.append (ns ++ ns')

end Cascade

namespace Session

variable {s : Session} {o : Operation}

/-- The states of a turn in which it is settled who is heard. -/
def settlements (s : Session) (o : Operation) : List Cascade :=
  match s.turn? o with
  | some (_, c) => c.runSettlements
  | none => []

/-- The notices that are taken in a run. -/
def takenOf : Session → List Operation → List Notice
  | _, [] => []
  | s, o :: os => s.taken o ++ (s.apply o).takenOf os

theorem logOf_append (s : Session) (os os' : List Operation) :
    s.logOf (os ++ os') = s.takenOf os ++ (s.applyAll os).logOf os' := by
  induction os generalizing s with
  | nil => rfl
  | cons o rest ih =>
    rw [List.cons_append, logOf, ih, ← List.append_assoc]
    rfl

/-- The depths are told in every turn, at the end and whenever it is settled who is heard. -/
theorem measured_turn {old : List Notice} (ready : s.openCascade.Ready)
    (h : s.openCascade.Measured (old ++ s.notices.toList)) {ms : List Moment} {c : Cascade}
    (ht : s.turn? o = some (ms, c)) :
    (s.apply o).openCascade.Measured (old ++ (s.apply o).notices.toList) ∧
      ∀ d ∈ s.settlements o, d.Measured (old ++ (s.apply o).notices.toList) := by
  obtain ⟨c₁, acts, quiet, produced⟩ := exists_acts_turn? ready.orderly.sound ht
  have opening : c.Measured (old ++ c.notices.toList) :=
    quiet.measured (fun p hp => produced ▸ hp) (acts.measured h)
  obtain ⟨whole, later⟩ := Cascade.measured_drain c.limits.cascadeSteps (ready_turn? ready ht)
    (Cascade.measured_settle opening)
  obtain ⟨ns, settled, -⟩ := c.quiet_settle.1.notices
  obtain ⟨⟨ns', _, tells, -⟩, -⟩ :=
    Cascade.drain_tells c.limits.cascadeSteps (ready_turn? ready ht)
  have apply_eq : s.apply o = c.run.2 := by rw [s.apply_eq, ht]
  rw [apply_eq, settlements, ht]
  refine ⟨⟨whole.live, nofun⟩, List.forall_mem_cons.2 ⟨?_, later⟩⟩
  have log_eq : c.run.2.notices.toList = c.notices.toList ++ (ns ++ ns') := by
    rw [← List.append_assoc, ← settled]
    exact tells.notices
  rw [log_eq, ← List.append_assoc]
  exact opening.append _

/-- The depths are told in every operation. -/
theorem measured_apply {old : List Notice} (ready : s.openCascade.Ready)
    (h : s.openCascade.Measured (old ++ s.notices.toList)) (o : Operation) :
    let log := old ++ s.taken o ++ (s.apply o).notices.toList
    (s.apply o).openCascade.Measured log ∧ ∀ d ∈ s.settlements o, d.Measured log := by
  cases ht : s.turn? o with
  | some t =>
    obtain ⟨ms, c⟩ := t
    rw [taken_of_turn? ht, List.append_nil]
    exact measured_turn ready h ht
  | none =>
    have unsettled : s.settlements o = [] := by rw [settlements, ht]
    obtain ⟨ns, notices, -⟩ := exists_enters_idle ht
    -- Without a turn no instance begins, so whoever is live has been so before.
    have live : ∀ id i, (s.apply o).instances.get? id = some i → s.instances.get? id = some i := by
      intro id i hi
      rw [s.apply_eq, ht] at hi
      by_cases closes : ∃ reason, o = .close reason ∧ s.isClosed = false
      · obtain ⟨reason, rfl, isOpen⟩ := closes
        simp only [idle, Session.close, isOpen, Bool.false_eq_true, if_false, notify] at hi
        cases hi
      · obtain ⟨-, -, instances, -⟩ := idle_frame closes
        rwa [instances] at hi
    dsimp only
    rw [List.append_assoc, notices, ← List.append_assoc, unsettled]
    exact ⟨⟨fun id i hi => (h.append ns).live id i (live id i hi), List.forall_mem_nil _⟩,
      List.forall_mem_nil _⟩

theorem measured_applyAll {old : List Notice} (ready : s.openCascade.Ready)
    (h : s.openCascade.Measured (old ++ s.notices.toList)) (os : List Operation) :
    (s.applyAll os).openCascade.Measured
      (old ++ s.takenOf os ++ (s.applyAll os).notices.toList) := by
  induction os generalizing s old with
  | nil =>
    rw [takenOf, List.append_nil]
    exact h
  | cons o rest ih =>
    rw [takenOf, ← List.append_assoc]
    exact ih (ready_apply ready o) (measured_apply ready h o).1

/-! ## Runs -/

/-- What is said in a turn, and what is delivered, is what is kept at the settlements of the
turn. -/
structure Airs (s : Session) (o : Operation) (t : Turn) : Prop where
  /-- From one settlement to the next the event at the front of the queue is delivered. -/
  chain : (s.settlements o).IsChain Cascade.Leads
  /-- What is said is what is kept at the settlements and meant for the user. -/
  emitted : t.emitted = (s.settlements o).flatMap Cascade.utterances
  /-- What is delivered has been in the queue from the beginning, or was kept at a settlement. -/
  delivered : ∃ c ds left, s.settlements o = c :: ds ∧
    c.queue ++ (s.settlements o).flatMap Cascade.settled =
      Moment.deliveries (s.history o) ++ left ∧
    ds.length = (Moment.deliveries (s.history o)).length

/-- Nothing is said in a turn before it is settled who is heard. -/
theorem emitted_turn? (hs : s.Sound) {ms : List Moment} {c : Cascade}
    (ht : s.turn? o = some (ms, c)) : c.emitted = #[] := by
  have unsaid {ms c'} (path : Path Cascade.Change s.openCascade ms c') : c'.emitted = #[] :=
    congrArg (fun l => l.2.1) path.ledger.1
  cases begins_of_turn? ht with
  | @start flows c₁ launched =>
    show c₁.emitted = #[]
    exact unsaid (Cascade.path_launchAll hs launched)
  | startFlow launched => exact unsaid (Cascade.path_launch hs launched)
  | submit e => rfl
  | completeCall call result =>
    unfold completing
    dsimp only
    split <;> rfl
  | fireTimers now =>
    exact (Cascade.foldl_enqueue_frame
      (fun t : TimerId × InstanceId => timeoutEvent t.1 t.2) _ _).2.2.2
  | abort id reason =>
    exact unsaid (Path.of_changes (Cascade.changes_terminate hs id _ true))

/-- Every turn says and delivers what is kept at its settlements. -/
theorem airs_of_perform? (ready : s.openCascade.Ready) {t : Turn} {s' : Session}
    (hp : s.perform? o = some (t, s')) : s.Airs o t := by
  obtain ⟨left, complete, -⟩ := (isOrdered_of_perform? ready hp).1.complete
  rw [perform?_eq] at hp
  obtain ⟨⟨ms, c⟩, ht, hrun⟩ := Option.map_eq_some_iff.1 hp
  obtain rfl : c.run.1 = t := congrArg Prod.fst hrun
  have settlements : s.settlements o = c.runSettlements := by rw [settlements, ht]
  have silent : c.emitted.toList = [] := by rw [emitted_turn? ready.orderly.sound ht]
  refine ⟨settlements ▸ Cascade.isChain_drainSettlements _ c, ?_, c, _, left, settlements, ?_, ?_⟩
  · have whole := Cascade.emitted_drain c.limits.cascadeSteps (ready_turn? ready ht)
    rw [Cascade.emitted_settle, silent, List.nil_append] at whole
    rw [settlements]
    exact whole
  · rw [← complete, settlements, ← Cascade.runNumbered_eq, numbered, ht]
  · rw [Cascade.length_drainSettlements, deliveries_history ht]

/-- In every run, whenever it is settled who is heard, this is the deepest of those instances that
have said something to the user, and the oldest of several that are equally deep. All that it has
said is kept, and so is everything that is not meant for the user or that no instance has sent. What
is kept is numbered and queued in order, and of that is emitted what is meant for the user. Of the
rest is noted who was heard instead; it gets no number, and it is not delivered. The depth that
counts is the one that the log tells when an instance begins, and that it keeps as long as it is
live. -/
theorem deepest_speaker_heard (name : String) (library : FlowLibrary) (limits : Limits)
    (context : Params) (os : List Operation) (o : Operation) :
    let s₀ := new name library limits context
    let s := s₀.applyAll os
    let log := s₀.logOf (os ++ [o])
    (∀ c ∈ s.settlements o,
      c.Arbitrates c.winner? ∧
      (∀ id i, c.instances.get? id = some i → depthsOf log id = [i.depth]) ∧
      ∀ p ∈ c.produced.toList, ∀ id depth, p.speaker = some (id, depth) →
        depthsOf log id = [depth]) ∧
    ∀ t s', s.perform? o = some (t, s') → s.Airs o t := by
  intro s₀ s log
  have ready₀ : s₀.openCascade.Ready := ready_new name library limits context
  have ready : s.openCascade.Ready := ready_applyAll ready₀ os
  have measured₀ : s₀.openCascade.Measured ([] ++ s₀.notices.toList) := ⟨nofun, nofun⟩
  have measured : s.openCascade.Measured (s₀.takenOf os ++ s.notices.toList) :=
    measured_applyAll ready₀ measured₀ os
  have log_eq : log = s₀.takenOf os ++ s.taken o ++ (s.apply o).notices.toList := by
    rw [List.append_assoc]
    exact s₀.logOf_append os [o]
  obtain ⟨ns, told, -, books⟩ := books_applyAll ready₀ (os ++ [o])
  have whole := books [] [] _ (books_new name library limits context)
  obtain rfl : log = ns := told
  refine ⟨fun c hc => ?_, fun t s' hp => airs_of_perform? ready hp⟩
  -- By the books each instance is told of once at its beginning, so it has one depth.
  have depths := (measured_apply ready measured o).2 c hc
  rw [← log_eq] at depths
  exact ⟨c.arbitrates, fun id i hi => whole.depthsOf_eq (depths.live id i hi),
    fun p hp id depth hs => whole.depthsOf_eq (depths.speakers p hp id depth hs)⟩

end Session

end Dialogue
