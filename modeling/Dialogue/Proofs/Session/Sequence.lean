import Dialogue.Proofs.Session.Delivery

/-!
# The order of events

Events get their numbers when they are queued, and they leave the queue at its front. So they are
delivered in the order of their numbers, whichever events follow from a delivery. A turn that has
used up its deliveries gives up what is still queued, and the session with it; any other turn
delivers all that it has numbered.

Within one delivery the instances that take the event go on in the order in which they have begun.
They have been determined before the first of them goes on, so none of them begins meanwhile.

## Main definitions

* `Cascade.Numbers` — events get the next numbers
* `Session.numbered`, `Session.numberedOf` — the events that are numbered in a turn, and in a run
* `Turn.IsOrdered` — the order of the events of a turn
* `Cascade.TakesTurns` — the order in which instances go on

## Main results

* `Cascade.fifo_drain` — events leave the queue in the order in which they have got their numbers
* `Session.events_in_order` — every turn is ordered, and no number is given twice
-/

namespace Dialogue

open Relation (ReflTransGen)

namespace Cascade

variable {c c' c'' : Cascade} {es es' : List Event}

/-! ## Numbers -/

/-- Events get the next numbers in order, and some of them are said. -/
structure Numbers (c : Cascade) (es : List Event) (c' : Cascade) : Prop where
  sequences : es.map Event.sequence = List.range' (c.sequenced + 1) es.length
  sequenced : c'.sequenced = c.sequenced + es.length
  said : ∃ said, said.Sublist es ∧ c'.emitted.toList = c.emitted.toList ++ said

/-- Nothing is numbered. -/
theorem Numbers.of_ledger (h : c'.ledger = c.ledger) : Numbers c [] c' := by
  simp only [ledger, Prod.mk.injEq] at h
  exact ⟨rfl, h.1, [], .refl [], by rw [h.2.1, List.append_nil]⟩

theorem Numbers.trans (h : Numbers c es c') (h' : Numbers c' es' c'') :
    Numbers c (es ++ es') c'' := by
  obtain ⟨said, sub, emitted⟩ := h.said
  obtain ⟨said', sub', emitted'⟩ := h'.said
  refine ⟨?_, ?_, said ++ said', sub.append sub', ?_⟩
  · rw [List.map_append, h.sequences, h'.sequences, h.sequenced, List.length_append,
      ← List.range'_append_1, Nat.add_right_comm]
  · rw [h'.sequenced, h.sequenced, List.length_append, Nat.add_assoc]
  · rw [emitted', emitted, List.append_assoc]

/-- Numbers that are given one after the other ascend. -/
theorem Numbers.ascending (h : Numbers c es c') :
    es.Pairwise fun a b => a.sequence < b.sequence := by
  rw [← List.pairwise_map (f := Event.sequence), h.sequences]
  exact List.pairwise_lt_range'

/-! ### What is settled -/

theorem numbers_settleOne (winner : Option (InstanceId × Nat)) (state : Cascade × List Event)
    (p : Produced) : ∃ es, Numbers state.1 es (settleOne winner state p).1 ∧
      (settleOne winner state p).2 = es.reverse ++ state.2 ∧
        (settleOne winner state p).1.fault = state.1.fault := by
  obtain ⟨c, kept⟩ := state
  unfold settleOne
  dsimp only
  split
  · exact ⟨[], .of_ledger rfl, rfl, rfl⟩
  -- An event that is kept gets the next number, and it is said if it is meant for the user.
  · refine ⟨[p.event.stamped (c.sequenced + 1)], ?_, rfl, ?_⟩
    · split
      · exact ⟨rfl, rfl, [_], .refl _, Array.toList_push⟩
      · exact ⟨rfl, rfl, [], List.nil_sublist _, (List.append_nil _).symm⟩
    · split <;> rfl

theorem numbers_foldl_settleOne (winner : Option (InstanceId × Nat)) (ps : List Produced)
    (state : Cascade × List Event) : ∃ es,
      Numbers state.1 es (ps.foldl (settleOne winner) state).1 ∧
      (ps.foldl (settleOne winner) state).2 = es.reverse ++ state.2 ∧
        (ps.foldl (settleOne winner) state).1.fault = state.1.fault := by
  induction ps generalizing state with
  | nil => exact ⟨[], .of_ledger rfl, rfl, rfl⟩
  | cons p rest ih =>
    obtain ⟨es, numbers, kept, fault⟩ := numbers_settleOne winner state p
    obtain ⟨es', numbers', kept', fault'⟩ := ih (settleOne winner state p)
    refine ⟨es ++ es', numbers.trans numbers', ?_, fault'.trans fault⟩
    rw [List.foldl_cons, kept', kept, List.reverse_append, List.append_assoc]

/-- The events that are kept when it is settled who is heard, with their numbers. -/
def settled (c : Cascade) : List Event :=
  let produced := c.produced.toList
  let speakers := (produced.filter fun p =>
    c.library.vocabulary.isOutput p.event.name).filterMap Produced.speaker
  (produced.foldl (settleOne (heard? speakers)) ({ c with produced := #[] }, [])).2.reverse

/-- What is kept is queued, in the order of its numbers. -/
theorem numbers_settle (c : Cascade) : Numbers c c.settled c.settle ∧
    c.settle.queue = c.queue ++ c.settled ∧ c.settle.fault = c.fault := by
  let start : Cascade × List Event := ({ c with produced := #[] }, [])
  let winner := heard? ((c.produced.toList.filter fun p =>
    c.library.vocabulary.isOutput p.event.name).filterMap Produced.speaker)
  obtain ⟨es, numbers, kept, fault⟩ := numbers_foldl_settleOne winner c.produced.toList start
  have queue := (hears_foldl_settleOne winner c.produced.toList start).queue
  have settled_eq : c.settled = es := by
    rw [settled]
    exact (congrArg List.reverse kept).trans (by simp [start])
  rw [settled_eq]
  refine ⟨⟨numbers.sequences, numbers.sequenced, numbers.said⟩, ?_, fault⟩
  show (c.produced.toList.foldl (settleOne winner) start).1.queue ++ c.settled = _
  rw [settled_eq, queue]

/-! ### What a delivery does not touch -/

theorem Removes.ledger (h : Removes c c') : c'.ledger = c.ledger ∧ c'.queue = c.queue := by
  induction h with
  | refl => exact ⟨rfl, rfl⟩
  | tail _ last ih =>
    obtain ⟨id, e⟩ := last
    exact ⟨e.ledger.trans ih.1, e.queue.trans ih.2⟩

theorem Change.ledger (h : c.Change c') : c'.ledger = c.ledger ∧ c'.queue = c.queue := by
  cases h with
  | begin h _ =>
    obtain ⟨-, -, -, -, -, -, -, rfl⟩ := begins_of_spawn h
    exact ⟨rfl, rfl⟩
  | prune h => exact h.removes.ledger
  | _ => exact ⟨rfl, rfl⟩

end Cascade

/-- Nothing is numbered or queued by the changes of a turn. -/
theorem Path.ledger {c c' : Cascade} {ms : List Moment} (h : Path Cascade.Change c ms c') :
    c'.ledger = c.ledger ∧ c'.queue = c.queue := by
  refine h.induct (P := fun d => d.ledger = c.ledger ∧ d.queue = c.queue) ⟨rfl, rfl⟩
    (fun d d' ch hd => ⟨ch.ledger.1.trans hd.1, ch.ledger.2.trans hd.2⟩)
    (fun d d' id w s hd => ?_) fun d d' id w s hd => ?_
  · obtain ⟨-⟩ := s
    exact hd
  · obtain ⟨-⟩ := s
    exact hd

namespace Cascade

open Moment (OnlySuspends deliveries wakings)

variable {c c' : Cascade} {es : List Event} {e : Event}

/-! ## Turns -/

/-- The events that are numbered until the queue is empty. -/
def drainNumbered : Nat → Cascade → List Event
  | budget, c =>
    match c.queue with
    | [] => []
    | e :: rest =>
      match budget with
      | 0 => []
      | budget + 1 =>
        (({ c with queue := rest } : Cascade).deliver e).settled ++
          drainNumbered budget (({ c with queue := rest } : Cascade).deliver e).settle

/-- The events that are numbered in the rest of a turn. -/
def runNumbered (c : Cascade) : List Event :=
  c.settled ++ drainNumbered c.limits.cascadeSteps c.settle

theorem numbers_drain : ∀ (budget : Nat) {c : Cascade}, c.Ready →
    Numbers c (drainNumbered budget c) (drain budget c)
  | budget, c, h => by
    unfold drainNumbered drain
    cases c.queue with
    | nil => exact .of_ledger rfl
    | cons e rest =>
      cases budget with
      | zero => exact ⟨rfl, rfl, [], .refl [], (List.append_nil _).symm⟩
      | succ budget =>
        let c₁ : Cascade := { c with queue := rest }
        have delivered : (c₁.deliver e).ledger = c.ledger :=
          (path_deliver (c := c₁) h.orderly.sound e).ledger.1
        have first := (Numbers.of_ledger delivered).trans (numbers_settle (c₁.deliver e)).1
        exact first.trans (numbers_drain budget ((h.pop rest).deliver e))

/-- Events leave the queue in the order in which they have come into it. Unless the deliveries are
used up, none is left; and if some are left, the session has a fault. -/
theorem fifo_drain : ∀ (budget : Nat) {c : Cascade}, c.Ready →
    ∃ left, c.queue ++ drainNumbered budget c = deliveries (drainHistory budget c) ++ left ∧
      (deliveries (drainHistory budget c)).length ≤ budget ∧
        (left ≠ [] → (deliveries (drainHistory budget c)).length = budget ∧
          (drain budget c).fault.isSome) ∧
        (left = [] → (drain budget c).fault = c.fault)
  | budget, c, h => by
    unfold drainNumbered drainHistory drain
    cases c.queue with
    | nil => exact ⟨[], rfl, Nat.zero_le _, fun ne => absurd rfl ne, fun _ => rfl⟩
    | cons e rest =>
      cases budget with
      | zero => exact ⟨e :: rest, by simp [deliveries], Nat.le_refl _, fun _ => ⟨rfl, rfl⟩,
        fun eq => absurd eq (List.cons_ne_nil _ _)⟩
      | succ budget =>
        let c₁ : Cascade := { c with queue := rest }
        obtain ⟨left, order, bounded, broken, clean⟩ := fifo_drain budget ((h.pop rest).deliver e)
        obtain ⟨ms, history, quiet, -⟩ := c₁.deliverHistory_eq e
        have delivered : deliveries (c₁.deliverHistory e) = [e] := by
          rw [history]
          exact congrArg (e :: ·) quiet
        obtain ⟨ledger, kept⟩ : (c₁.deliver e).ledger = c.ledger ∧ (c₁.deliver e).queue = rest :=
          (path_deliver (c := c₁) h.orderly.sound e).ledger
        obtain ⟨-, queue, fault⟩ := numbers_settle (c₁.deliver e)
        have fault₁ : (c₁.deliver e).fault = c.fault := congrArg (fun l => l.2.2) ledger
        rw [Moment.deliveries_append, delivered]
        refine ⟨left, ?_, ?_, fun ne => ?_, fun eq => (clean eq).trans (fault.trans fault₁)⟩
        -- What the delivery has led to is queued behind the rest.
        · rw [List.append_assoc, ← order, queue, kept, List.append_assoc]
          rfl
        · rw [List.length_append]
          exact Nat.add_comm _ _ ▸ Nat.succ_le_succ bounded
        · obtain ⟨used, failed⟩ := broken ne
          rw [List.length_append, used]
          exact ⟨Nat.add_comm _ _, failed⟩

/-! ### Where a turn begins to deliver events -/

/-- What is queued is numbered, and what has been queued before stays in front of it. -/
theorem numbers_foldl_enqueue {α : Type} (event : α → Event) (as : List α) (c : Cascade) :
    ∃ es, Numbers c es (as.foldl (fun c a => c.enqueue (event a)) c) ∧
      (as.foldl (fun c a => c.enqueue (event a)) c).queue = c.queue ++ es ∧
        (as.foldl (fun c a => c.enqueue (event a)) c).fault = c.fault := by
  induction as generalizing c with
  | nil => exact ⟨[], .of_ledger rfl, (List.append_nil _).symm, rfl⟩
  | cons a rest ih =>
    have first : Numbers c [(event a).stamped (c.sequenced + 1)] (c.enqueue (event a)) :=
      ⟨rfl, rfl, [], List.nil_sublist _, (List.append_nil _).symm⟩
    obtain ⟨es, numbers, queue, fault⟩ := ih (c.enqueue (event a))
    refine ⟨_, first.trans numbers, queue.trans ?_, fault⟩
    exact List.append_assoc c.queue _ es

/-- The queue of a turn holds what has been numbered until it begins to deliver events. -/
structure Opens (s : Session) (c : Cascade) : Prop where
  numbers : Numbers s.openCascade c.queue c
  fault : c.fault = s.fault

theorem opens_of_path {s : Session} {ms : List Moment} (h : Path Change s.openCascade ms c) :
    Opens s c := by
  obtain ⟨ledger, queue⟩ := h.ledger
  have empty : c.queue = [] := queue
  exact ⟨empty ▸ .of_ledger ledger, congrArg (fun l => l.2.2) ledger⟩

/-- Events are queued after something else has changed. -/
theorem opens_foldl_enqueue {s : Session} {α : Type} (s' : Session) (event : α → Event)
    (as : List α) (same : s'.openCascade.ledger = s.openCascade.ledger) :
    Opens s (as.foldl (fun c a => c.enqueue (event a)) s'.openCascade) := by
  obtain ⟨es, numbers, queue, fault⟩ := numbers_foldl_enqueue event as s'.openCascade
  have queue : (as.foldl (fun c a => c.enqueue (event a)) s'.openCascade).queue = es := queue
  have whole := (Numbers.of_ledger same).trans numbers
  refine ⟨queue ▸ whole, fault.trans (congrArg (fun l => l.2.2) same)⟩

end Cascade

/-! ## Deliveries apart -/

namespace Moment

/-- The moments until the next delivery. -/
def untilDelivery (ms : List Moment) : List Moment := ms.takeWhile fun m => m.delivery?.isNone

variable {qs ms pre post : List Moment} {e : Event} {c : Cascade}

/-- A delivery lies behind moments that are none. -/
theorem split_of_deliveries_eq_nil (hq : deliveries qs = [])
    (h : qs ++ ms = pre ++ .delivered e c :: post) :
    ∃ pre', pre = qs ++ pre' ∧ ms = pre' ++ .delivered e c :: post := by
  induction qs generalizing pre with
  | nil => exact ⟨pre, rfl, h⟩
  | cons q qs ih =>
    have quiet := List.filterMap_eq_nil_iff.1 hq
    cases pre with
    | nil =>
      obtain ⟨rfl, -⟩ := List.cons.inj h
      cases quiet _ List.mem_cons_self
    | cons m pre =>
      obtain ⟨rfl, tail⟩ := List.cons.inj h
      have more : deliveries qs = [] :=
        List.filterMap_eq_nil_iff.2 fun m hm => quiet m (List.mem_cons_of_mem _ hm)
      obtain ⟨pre', rfl, rest⟩ := ih more tail
      exact ⟨pre', rfl, rest⟩

theorem untilDelivery_append (hq : deliveries qs = []) :
    untilDelivery (qs ++ ms) = qs ++ untilDelivery ms := by
  refine List.takeWhile_append_of_pos fun m hm => ?_
  rw [List.filterMap_eq_nil_iff.1 hq m hm]
  rfl

/-- Of several deliveries, one after the other, each lasts until the next one. -/
theorem deliverHistory_of_split : ∀ (ds : List (Event × Cascade)) {pre : List Moment},
    ds.flatMap (fun d => d.2.deliverHistory d.1) = pre ++ .delivered e c :: post →
      (e, c) ∈ ds ∧ c.deliverHistory e = .delivered e c :: untilDelivery post
  | [], pre, h => by simp at h
  | (e', d) :: ds, pre, h => by
    obtain ⟨ms, history, quiet, -⟩ := d.deliverHistory_eq e'
    rw [List.flatMap_cons, history, List.cons_append] at h
    cases pre with
    | nil =>
      obtain ⟨first, rfl⟩ := List.cons.inj h
      obtain ⟨rfl, rfl⟩ := Moment.delivered.inj first
      -- What follows begins with another delivery, if there is one.
      have next : untilDelivery (ds.flatMap fun d => d.2.deliverHistory d.1) = [] := by
        cases ds with
        | nil => rfl
        | cons d' ds => rfl
      rw [untilDelivery_append quiet, next, List.append_nil]
      exact ⟨List.mem_cons_self, history⟩
    | cons m pre =>
      obtain ⟨-, h⟩ := List.cons.inj h
      obtain ⟨pre', -, rest⟩ := split_of_deliveries_eq_nil quiet h
      obtain ⟨hm, heq⟩ := deliverHistory_of_split ds rest
      exact ⟨List.mem_cons_of_mem _ hm, heq⟩

end Moment

/-! ## Operations -/

/-- The events of a turn are in order: those that are delivered are the first ones that have been
numbered, each of them once, and no more than the bound allows. -/
structure Turn.IsOrdered (limits : Limits) (numbered delivered : List Event) (t : Turn) : Prop where
  /-- Events are delivered in the order of their numbers. -/
  ascending : delivered.Pairwise fun a b => a.sequence < b.sequence
  /-- The number of deliveries is bounded. -/
  bounded : delivered.length ≤ limits.cascadeSteps
  /-- What is numbered is delivered, in this order. Something is left if and only if the turn has a
  fault, and then all deliveries have been used up. -/
  complete : ∃ left, numbered = delivered ++ left ∧ (t.fault.isSome = true ↔ left ≠ []) ∧
    (left ≠ [] → delivered.length = limits.cascadeSteps)
  /-- What is said is said in the order of its numbers. -/
  said : t.emitted.Pairwise fun a b => a.sequence < b.sequence
  /-- What is said has been numbered in this turn. -/
  numbered : t.emitted.Sublist numbered

/-- Instances go on in the order in which they have begun, each of them once, and all of them have
been suspended when the event is delivered. -/
structure Cascade.TakesTurns (c : Cascade) (ids : List InstanceId) : Prop where
  ascending : ids.Pairwise fun a b => a.number < b.number
  suspended : ∀ id ∈ ids, ∃ w, c.toSession.waitOf? id = some w

theorem Cascade.takesTurns_consumers {c : Cascade} (hs : c.toSession.Sound) (e : Event) :
    c.TakesTurns ((c.consumers e).map Prod.fst) := by
  refine ⟨List.pairwise_map.2 (c.pairwise_consumers hs e), fun id hid => ?_⟩
  obtain ⟨r, hr, rfl⟩ := List.mem_map.1 hid
  exact Cascade.waits_of_mem_consumers hs hr

theorem Cascade.TakesTurns.sublist {c : Cascade} {ids ids' : List InstanceId}
    (h : c.TakesTurns ids) (sub : ids'.Sublist ids) : c.TakesTurns ids' :=
  ⟨h.ascending.sublist sub, fun id hid => h.suspended id (sub.subset hid)⟩

namespace Session

variable {s : Session}

/-- The events that are numbered in the turn of an operation, in order. -/
def numbered (s : Session) (o : Operation) : List Event :=
  match s.turn? o with
  | some (_, c) => c.queue ++ c.runNumbered
  | none => []

/-- The events that are numbered in a run, in order. -/
def numberedOf : Session → List Operation → List Event
  | _, [] => []
  | s, o :: os => s.numbered o ++ (s.apply o).numberedOf os

theorem opens_turn? (hs : s.Sound) {o : Operation} {ms : List Moment} {c : Cascade}
    (h : s.turn? o = some (ms, c)) : Cascade.Opens s c := by
  -- Numbers are given when events are settled, and up to here nothing has been settled.
  cases begins_of_turn? h with
  | start launched =>
    have opens := Cascade.opens_of_path (Cascade.path_launchAll hs launched)
    exact ⟨⟨opens.numbers.sequences, opens.numbers.sequenced, opens.numbers.said⟩, opens.fault⟩
  | startFlow launched => exact Cascade.opens_of_path (Cascade.path_launch hs launched)
  | submit e => exact Cascade.opens_foldl_enqueue s (fun e => e) [e] rfl
  | completeCall call result =>
    let s' : Session := { s with calls := (s.calls.complete call).2 }
    unfold completing
    dsimp only
    split
    · exact ⟨.of_ledger rfl, rfl⟩
    · exact ⟨.of_ledger rfl, rfl⟩
    · exact Cascade.opens_foldl_enqueue s' (fun e => e) [resultEvent call _ result] rfl
  | fireTimers now =>
    let s' : Session := { s.tick now with timers := ((s.tick now).timers.takeDue now).2 }
    exact Cascade.opens_foldl_enqueue s' (fun t : TimerId × InstanceId => timeoutEvent t.1 t.2)
      ((s.tick now).timers.takeDue now).1 rfl
  | abort id reason =>
    exact Cascade.opens_of_path (Path.of_changes (Cascade.changes_terminate hs id _ true))

/-- The numbers of a turn. -/
theorem numbers_turn? (h : s.openCascade.Ready) {o : Operation} {ms : List Moment} {c : Cascade}
    (ht : s.turn? o = some (ms, c)) : Cascade.Numbers s.openCascade (s.numbered o)
      (Cascade.drain c.limits.cascadeSteps c.settle) := by
  have opens := opens_turn? h.orderly.sound ht
  have settled := c.numbers_settle.1
  have drained := Cascade.numbers_drain c.limits.cascadeSteps (ready_turn? h ht)
  rw [numbered, ht]
  exact opens.numbers.trans (settled.trans drained)

/-- Nothing is delivered in a turn before its queue is drained. -/
theorem deliveries_history {o : Operation} {ms : List Moment} {c : Cascade}
    (ht : s.turn? o = some (ms, c)) : Moment.deliveries (s.history o) =
      Moment.deliveries (Cascade.drainHistory c.limits.cascadeSteps c.settle) := by
  rw [history, ht]
  exact (Moment.deliveries_append ms _).trans
    (congrArg (· ++ _) (onlySuspends_turn? ht).deliveries)

/-- Every turn is in order, and its fault is that of the session. -/
theorem isOrdered_of_perform? (h : s.openCascade.Ready) {o : Operation} {t : Turn} {s' : Session}
    (hp : s.perform? o = some (t, s')) :
    t.IsOrdered s.limits (s.numbered o) (Moment.deliveries (s.history o)) ∧
      s'.fault = t.fault := by
  rw [perform?_eq] at hp
  obtain ⟨⟨ms, c⟩, ht, hrun⟩ := Option.map_eq_some_iff.1 hp
  obtain rfl : c.run.1 = t := congrArg Prod.fst hrun
  obtain rfl : c.run.2 = s' := congrArg Prod.snd hrun
  refine ⟨?_, rfl⟩
  have numbers := numbers_turn? h ht
  have limits : c.limits = s.limits := (path_turn? h.orderly.sound ht).passes_limits
  obtain ⟨-, queue, fault⟩ := c.numbers_settle
  obtain ⟨left, order, bounded, broken, settled⟩ :=
    Cascade.fifo_drain c.limits.cascadeSteps (ready_turn? h ht)
  have delivered := deliveries_history ht
  have complete : s.numbered o = Moment.deliveries (s.history o) ++ left := by
    rw [delivered, ← order, queue, List.append_assoc, numbered, ht]
    rfl
  -- A session that has turns has no fault before.
  have clean : c.settle.fault = none :=
    fault.trans ((opens_turn? h.orderly.sound ht).fault.trans (fault_of_turn? ht))
  obtain ⟨said, sub, emitted⟩ := numbers.said
  have emitted : c.run.1.emitted = said := emitted
  have ascending := numbers.ascending
  refine ⟨?_, ?_, ⟨left, complete, ⟨fun failed eq => ?_, fun ne => (broken ne).2⟩, fun ne => ?_⟩,
    ?_, emitted ▸ sub⟩
  · rw [complete] at ascending
    exact (List.pairwise_append.1 ascending).1
  · rw [delivered, ← limits]
    exact bounded
  · have unbroken : c.run.1.fault = none := (settled eq).trans clean
    rw [unbroken] at failed
    cases failed
  · rw [delivered, ← limits]
    exact (broken ne).1
  · rw [emitted]
    exact ascending.sublist sub

theorem sequenced_idle (s : Session) (o : Operation) : (s.idle o).sequenced = s.sequenced := by
  cases o with
  | close reason =>
    show (s.close reason).sequenced = s.sequenced
    unfold close
    split <;> rfl
  | _ => rfl

/-- The numbers of a run are given one after the other. -/
theorem sequences_numberedOf (h : s.openCascade.Ready) (os : List Operation) :
    (s.numberedOf os).map Event.sequence =
        List.range' (s.sequenced + 1) (s.numberedOf os).length ∧
      (s.applyAll os).sequenced = s.sequenced + (s.numberedOf os).length := by
  induction os generalizing s with
  | nil => exact ⟨rfl, rfl⟩
  | cons o rest ih =>
    obtain ⟨sequences, sequenced⟩ := ih (ready_apply h o)
    -- An operation goes on where the one before has stopped.
    obtain ⟨first, counted⟩ : (s.numbered o).map Event.sequence =
          List.range' (s.sequenced + 1) (s.numbered o).length ∧
        (s.apply o).sequenced = s.sequenced + (s.numbered o).length := by
      rw [apply_eq]
      cases ht : s.turn? o with
      | none =>
        have nothing : s.numbered o = [] := by rw [numbered, ht]
        rw [nothing]
        exact ⟨rfl, s.sequenced_idle o⟩
      | some t => exact ⟨(numbers_turn? h ht).sequences, (numbers_turn? h ht).sequenced⟩
    refine ⟨?_, ?_⟩
    · rw [numberedOf, List.map_append, first, sequences, counted, List.length_append,
        ← List.range'_append_1, Nat.add_right_comm]
    · rw [numberedOf, List.length_append, ← Nat.add_assoc, ← counted]
      exact sequenced

/-- In every run no number is given twice. Every turn delivers events in the order of their numbers,
each of them once and within the bound, and it has a fault, which is then that of the session, if
and only if something is left when the bound is reached. What it says is in order. After each
delivery those who take the event are asked in the order in which they have begun, each of them
once, and all of them have been suspended when the event was delivered; the instances that are woken
until the next delivery are among them, in the same order. -/
theorem events_in_order (name : String) (library : FlowLibrary) (limits : Limits)
    (context : Params) (os : List Operation) :
    let s₀ := new name library limits context
    let s := s₀.applyAll os
    (s₀.numberedOf os).map Event.sequence = List.range' 1 s.sequenced ∧
      (∀ o t s', s.perform? o = some (t, s') →
        s.apply o = s' ∧ s'.fault = t.fault ∧
          t.IsOrdered limits (s.numbered o) (Moment.deliveries (s.history o))) ∧
      ∀ o pre e c post, s.history o = pre ++ .delivered e c :: post →
        c.deliver e = (c.consumers e).foldl (fun c r => c.resume r.1 r.2) (c.purge e) ∧
          c.TakesTurns ((c.consumers e).map Prod.fst) ∧
          c.TakesTurns (Moment.wakings (Moment.untilDelivery post)) ∧
            (Moment.wakings (Moment.untilDelivery post)).Sublist ((c.consumers e).map Prod.fst) := by
  intro s₀ s
  have ready₀ : s₀.openCascade.Ready := ready_new name library limits context
  have ready : s.openCascade.Ready := ready_applyAll ready₀ os
  refine ⟨?_, fun o t s' hp => ?_, fun o pre e c post hm => ?_⟩
  · obtain ⟨sequences, sequenced⟩ := sequences_numberedOf ready₀ os
    have count : s.sequenced = (s₀.numberedOf os).length := sequenced.trans (Nat.zero_add _)
    rw [sequences, count]
    rfl
  · obtain ⟨ordered, fault⟩ := isOrdered_of_perform? ready hp
    have kept : s.limits = limits := (path_historyOf ready₀.orderly.sound os).passes_limits
    rw [kept] at ordered
    refine ⟨?_, fault, ordered⟩
    rw [apply_eq_perform?, hp]
  · obtain ⟨ms, ds, quiet, history, readies⟩ := history_eq_deliveries ready o
    rw [history] at hm
    obtain ⟨pre', -, rest⟩ := Moment.split_of_deliveries_eq_nil quiet.deliveries hm
    obtain ⟨hd, whole⟩ := Moment.deliverHistory_of_split ds rest
    have hs := (readies _ hd).orderly.sound
    obtain ⟨more, heq, -, sub⟩ := c.deliverHistory_eq e
    obtain ⟨-, rfl⟩ := List.cons.inj (whole.symm.trans heq)
    -- Those who are woken are among those who take the event, in the order in which these are
    -- asked.
    have takers := Cascade.takesTurns_consumers hs e
    exact ⟨rfl, takers, takers.sublist sub, sub⟩

end Session

end Dialogue
