import Dialogue.Proofs.Session.Sound

/-!
# How instances end

An instance is ended together with all that it has started: the search for what goes down with it
finds the children of whatever it finds, and each of them is ended in its turn. At the end of a body
the instance comes first and its children follow, so only what is over as a whole leaves no child
behind.

## Main results

* `Cascade.changes_terminate`, `Cascade.get?_terminate_self` — ending an instance early
* `Cascade.changes_complete`, `Cascade.get?_complete_self` — the end of a body
-/

namespace Dialogue

open Relation (ReflTransGen)

/-- An instance after another one has ended. -/
def Instance.unlinked (ended : Instance) (id : InstanceId) (i : Instance) : Instance :=
  { i with
    children := if ended.parent = some id then i.children.filter (· ≠ ended.id) else i.children
    parent := if i.isDetached && i.parent = some ended.id then none else i.parent }

theorem Instance.left_unlinked {s : Session} {ended : Instance} (id : InstanceId) (i : Instance)
    (gone : s.instances.get? ended.id = none) : i.Left s (unlinked ended id i) := by
  refine ⟨rfl, rfl, rfl, rfl, rfl, rfl, fun k hk => ?_, fun p hp => ?_, fun p hp => ?_,
    ?_, rfl⟩
  -- The one that has ended is struck off from the children of its parent, and nothing else is.
  · by_cases h : k = ended.id
    · exact .inr (h ▸ gone)
    · refine .inl ?_
      show k ∈ if ended.parent = some id then i.children.filter (· ≠ ended.id) else i.children
      split
      · exact List.mem_filter.2 ⟨hk, by simpa using h⟩
      · exact hk
  -- It is struck off as a parent only from what may outlive it.
  · by_cases h : i.isDetached = true ∧ p = ended.id
    · exact .inr ⟨h.1, h.2 ▸ gone⟩
    · exact .inl (by simpa [unlinked, hp] using h)
  · have hp : (if i.isDetached && i.parent = some ended.id then none else i.parent) = some p := hp
    split at hp
    · cases hp
    · exact hp
  · show (if ended.parent = some id then i.children.filter (· ≠ ended.id)
      else i.children).Sublist i.children
    split
    · exact List.filter_sublist
    · exact .refl _

namespace Cascade

variable {c c' : Cascade} {id root : InstanceId} {i : Instance}

/-- Quiet changes, one after the other. -/
abbrev Changes : Cascade → Cascade → Prop := ReflTransGen Change

theorem Changes.sound (h : Changes c c') (hs : c.toSession.Sound) : c'.toSession.Sound := by
  induction h with
  | refl => exact hs
  | tail _ last ih => exact last.sound ih

theorem Changes.clock (h : Changes c c') : c'.clock = c.clock := by
  induction h with
  | refl => rfl
  | tail _ last ih => exact last.clock.trans ih

theorem Changes.linked (h : Changes c c') (hs : c.toSession.Sound) (hl : c.toSession.Linked) :
    c'.toSession.Linked := by
  induction h with
  | refl => exact hl
  | tail first last ih => exact last.linked (Changes.sound first hs) ih

/-! ## One instance -/

theorem unlink_eq (c : Cascade) (ended : Instance) :
    c.unlink ended = { c with instances := c.instances.map (Instance.unlinked ended) } := by
  have : (fun id i =>
      let i := if ended.parent = some id then
        { i with children := i.children.filter (· ≠ ended.id) } else i
      if i.isDetached && i.parent = some ended.id then { i with parent := none } else i) =
        Instance.unlinked ended := by
    funext id i
    unfold Instance.unlinked
    -- One update is about the children, the other one about the parent, so the order is of no
    -- importance.
    by_cases h : ended.parent = some id <;> simp only [h, if_true, if_false] <;>
      cases (i.isDetached && decide (i.parent = some ended.id)) <;> rfl
  exact congrArg (fun f => { c with instances := c.instances.map f }) this

/-- What an instance that ends leaves behind among the live ones. -/
theorem get?_unlinked (k : InstanceId) :
    ((c.instances.erase id).map (Instance.unlinked i)).get? k =
      if k = id then none else (c.instances.get? k).map (Instance.unlinked i k) := by
  rw [Table.get?_map, Table.get?_erase]
  split <;> rfl

/-- An instance has ended if it has left the live ones for the archive, and if that has been
announced. -/
theorem ends_of_unlinked (hi : c.instances.get? id = some i) (hid : i.id = id)
    (instances : c'.instances = (c.instances.erase id).map (Instance.unlinked i))
    (archive : ∃ j : Instance, j.id = id ∧ j.phase.isLive = false ∧
      c'.archive = (c.archive.insert id j).keepLast c.limits.archiveSize)
    (timers : c'.timers = c.timersWithout (i.wait?.bind Wait.timer))
    (calls : c.calls.Loses c'.calls)
    (callsOfEnded : ∀ k call, c'.calls.pending.get? k = some call → call.owner = id →
      call.isCancelled = false → i.wait? = none)
    (callsOfOthers : ∀ k call, c.calls.pending.get? k = some call → call.owner ≠ id →
      c'.calls.pending.get? k = some call)
    (announced : ∃ e : Event, (e.name = EventName.flowFinished ∨ e.name = EventName.flowFailed) ∧
      e.parameter? "instance_id" = some (.ofNat id.number) ∧
        c'.produced = c.produced.push ⟨none, e⟩)
    (created : c'.created = c.created) (limits : c'.limits = c.limits)
    (library : c'.library = c.library) (queue : c'.queue = c.queue) (clock : c'.clock = c.clock)
    (ledger : c'.ledger = c.ledger) : c.Ends id c' where
  live := by rw [hi]; rfl
  gone := by rw [instances, get?_unlinked, if_pos rfl]
  spared k hk hl := by rwa [instances, get?_unlinked, if_neg hk, Option.isSome_map]
  survivors k j' hj' := by
    rw [instances, get?_unlinked] at hj'
    split at hj'
    · cases hj'
    · obtain ⟨j, hj, rfl⟩ := Option.map_eq_some_iff.1 hj'
      refine ⟨j, hj, Instance.left_unlinked k j ?_⟩
      rw [instances, get?_unlinked, if_pos hid]
  archive := archive
  timers := ⟨i, hi, timers⟩
  calls := calls
  callsOfEnded j k call hj hk ho hc := by
    obtain rfl := Option.some.inj (hi.symm.trans hj)
    exact callsOfEnded k call hk ho hc
  callsOfOthers := callsOfOthers
  announced := announced
  created := created
  limits := limits
  library := library
  queue := queue
  clock := clock
  ledger := ledger
  unlinked := by
    refine ⟨i, hi, fun k j' hj' => ?_⟩
    rw [instances, get?_unlinked] at hj'
    split at hj'
    · cases hj'
    · obtain ⟨j, -, rfl⟩ := Option.map_eq_some_iff.1 hj'
      refine ⟨fun hp => ?_, fun (hd : j.isDetached = true) => ?_⟩
      · simp [Instance.unlinked, hp, hid]
      · by_cases hp : j.parent = some id <;> simp [Instance.unlinked, hd, hid, hp]

/-- A live instance is ended early. -/
theorem abort_eq (hi : c.instances.get? i.id = some i) (error : FlowError) :
    c.abort i.id error = (({ c with
      instances := (c.instances.erase i.id).map (Instance.unlinked i)
      timers := c.timersWithout (i.wait?.bind Wait.timer)
      calls := c.calls.cancelOwned i.id } : Cascade).notify
        (.flowAborted i.id i.flowName error.message) |>.produce none (Event.of EventName.flowFailed
          [("flow", .string i.flowName), ("instance_id", .ofNat i.id.number),
            ("reason", .string error.message)])).retire
              { i with phase := .aborted error.message } := by
  simp only [abort, hi, unlink_eq]
  rfl

theorem ends_abort (hi : c.instances.get? id = some i) (hid : i.id = id) (error : FlowError) :
    c.Ends id (c.abort id error) := by
  subst hid
  rw [abort_eq hi]
  refine ends_of_unlinked hi rfl rfl ⟨{ i with phase := .aborted error.message }, rfl, rfl, rfl⟩
    rfl (c.calls.loses_cancelOwned i.id)
    (fun k call hk ho hc => absurd hc (by simp [c.calls.isCancelled_cancelOwned hk ho]))
    (fun k call h ho => Calls.get?_cancelOwned h ho) ⟨_, .inr rfl, ?_, rfl⟩ rfl rfl rfl rfl rfl rfl
  simp [Event.of, Event.new, Event.parameter?, Table.ofList, Table.get?_insert]

/-- The end of a body, before what the instance has started is ended. -/
def conclude (c : Cascade) (i : Instance) : Cascade :=
  (({ c with instances := (c.instances.erase i.id).map (Instance.unlinked i) } : Cascade).notify
    (.flowCompleted i.id i.flowName) |>.produce none (Event.of EventName.flowFinished
      [("flow", .string i.flowName), ("instance_id", .ofNat i.id.number)])).retire
        { i with phase := .completed }

theorem complete_eq (hi : c.instances.get? id = some i) (hid : i.id = id) :
    c.complete id = (c.conclude i).terminateAll i.children (.parentTerminated i.label) := by
  subst hid
  simp only [complete, hi, unlink_eq]
  rfl

theorem ends_conclude (hi : c.instances.get? id = some i) (hid : i.id = id)
    (awake : i.wait? = none) : c.Ends id (c.conclude i) := by
  subst hid
  have timers : c.timers = c.timersWithout (i.wait?.bind Wait.timer) := by rw [awake]; rfl
  refine ends_of_unlinked hi rfl rfl ⟨{ i with phase := .completed }, rfl, rfl, rfl⟩ timers
    (.refl _) (fun _ _ _ _ _ => awake) (fun _ _ h _ => h) ⟨_, .inl rfl, ?_, rfl⟩
    rfl rfl rfl rfl rfl rfl
  simp [Event.of, Event.new, Event.parameter?, Table.ofList]

/-! ## An instance and what it has started -/

theorem removes_abort (hs : c.toSession.Sound) (id : InstanceId) (error : FlowError) :
    Removes c (c.abort id error) ∧ (c.abort id error).instances.get? id = none := by
  cases hi : c.instances.get? id with
  | none =>
    have abort_eq : c.abort id error = c := by simp [abort, hi]
    rw [abort_eq]
    exact ⟨.refl, hi⟩
  | some i =>
    have ends := ends_abort hi (hs.id_eq hi) error
    exact ⟨.single ⟨id, ends⟩, ends.gone⟩

/-- Instances are ended one after the other; all of them are gone then. -/
theorem removes_foldl_abort (error : InstanceId → FlowError) (ids : List InstanceId)
    (hs : c.toSession.Sound) :
    Removes c (ids.foldl (fun c id => c.abort id (error id)) c) ∧
      ∀ id ∈ ids, (ids.foldl (fun c id => c.abort id (error id)) c).instances.get? id = none := by
  induction ids generalizing c with
  | nil => exact ⟨.refl, fun _ h => absurd h List.not_mem_nil⟩
  | cons id rest ih =>
    obtain ⟨first, ended⟩ := removes_abort hs id (error id)
    obtain ⟨more, gone⟩ := ih (first.sound hs)
    refine ⟨first.trans more, fun k hk => ?_⟩
    rcases List.mem_cons.1 hk with rfl | hk
    -- No instance begins anew while the others are ended.
    · exact more.survivors.gone ended
    · exact gone k hk

/-- Instances that are not among those that are ended stay live. -/
theorem isSome_foldl_abort (error : InstanceId → FlowError) (ids : List InstanceId)
    (hs : c.toSession.Sound) (hn : id ∉ ids) (h : (c.instances.get? id).isSome) :
    ((ids.foldl (fun c id => c.abort id (error id)) c).instances.get? id).isSome := by
  induction ids generalizing c with
  | nil => exact h
  | cons k rest ih =>
    obtain ⟨hne, hrest⟩ := not_or.1 (mt List.mem_cons.2 hn)
    have first := (removes_abort hs k (error k)).1
    refine ih (first.sound hs) hrest ?_
    cases hk : c.instances.get? k with
    | none => simpa [abort, hk] using h
    | some j => exact (ends_abort hk (hs.id_eq hk) _).spared id hne h

/-- What is found below an instance is ended, so none of its children is left. -/
theorem prunes_subtree (hs : c.toSession.Sound) (hi : c.instances.get? root = some i)
    (error : InstanceId → FlowError)
    (hc : c' = (Instance.subtree c.instances [root]).foldl (fun c id => c.abort id (error id)) c) :
    Prunes [] c c' ∧ c'.instances.get? root = none := by
  obtain ⟨removes, gone⟩ := removes_foldl_abort error (Instance.subtree c.instances [root]) hs
  rw [← hc] at removes gone
  refine ⟨⟨removes, fun id j hj hgone k hk => .inl ?_⟩, gone root ?_⟩
  -- What is gone has been ended, so the search has found it, and its children with it.
  · have found : id ∈ Instance.subtree c.instances [root] := by
      by_contra hnot
      have stays := isSome_foldl_abort error _ hs hnot (by rw [hj]; rfl)
      rw [← hc, hgone] at stays
      cases stays
    cases hl : c.instances.get? k with
    | none => exact removes.survivors.gone hl
    | some j' => exact gone k (Instance.mem_subtree_of_child found hj hk (by rw [hl]; rfl))
  · exact Instance.mem_subtree_of_mem List.mem_cons_self (by rw [hi]; rfl)

theorem Prunes.trans {spared : List InstanceId} {k : InstanceId} {c'' : Cascade}
    (h : Prunes (k :: spared) c c') (h' : Prunes [] c' c'') (gone : c''.instances.get? k = none) :
    Prunes spared c c'' where
  removes := h.removes.trans h'.removes
  closed id j hj hgone child hchild := by
    have survivors := h'.removes.survivors
    -- The instance has ended before, or it is one of those that end now.
    cases hj' : c'.instances.get? id with
    | none =>
      rcases h.closed id j hj hj' child hchild with hk | hk
      · exact .inl (survivors.gone hk)
      · rcases List.mem_cons.1 hk with rfl | hk
        · exact .inl gone
        · exact .inr hk
    | some j' =>
      obtain ⟨j₀, hj₀, left⟩ := h.removes.survivors id j' hj'
      obtain rfl := Option.some.inj (hj.symm.trans hj₀)
      rcases left.children child hchild with hk | hk
      · exact .inl ((h'.closed id j' hj' hgone child hk).resolve_right List.not_mem_nil)
      · exact .inl (survivors.gone hk)

/-- Ending an instance early ends what it has started. -/
theorem prunes_terminate (hs : c.toSession.Sound) (hi : c.instances.get? root = some i)
    (error : FlowError) (isReported : Bool) :
    Prunes [] { c with
      failures := if isReported then c.failures.push ⟨root, i.flowName, error⟩ else c.failures }
      (c.terminate root error isReported) ∧
        (c.terminate root error isReported).instances.get? root = none := by
  have terminate_eq : c.terminate root error isReported =
      (Instance.subtree c.instances [root]).foldl (fun c id => c.abort id
        (if id = root then error else .parentTerminated i.label)) { c with
          failures :=
            if isReported then c.failures.push ⟨root, i.flowName, error⟩ else c.failures } := by
    simp only [terminate, hi]
  exact prunes_subtree (c := { c with failures := _ }) hs hi _ terminate_eq

/-- Ending an instance that is not live has no effect. -/
theorem terminate_eq_self (hi : c.instances.get? root = none) (error : FlowError)
    (isReported : Bool) : c.terminate root error isReported = c := by
  simp only [terminate, hi]

theorem changes_terminate (hs : c.toSession.Sound) (root : InstanceId) (error : FlowError)
    (isReported : Bool) : Changes c (c.terminate root error isReported) := by
  cases hi : c.instances.get? root with
  | none => rw [terminate_eq_self hi]
  | some i =>
    exact .head (.note c.context c.notices _ (fun _ h => h) fun _ h => .inl h)
      (.single (.prune (prunes_terminate hs hi error isReported).1))

/-- An instance that is ended early is gone. -/
theorem get?_terminate_self (hs : c.toSession.Sound) (root : InstanceId) (error : FlowError)
    (isReported : Bool) : (c.terminate root error isReported).instances.get? root = none := by
  cases hi : c.instances.get? root with
  | none => rw [terminate_eq_self hi, hi]
  | some i => exact (prunes_terminate hs hi error isReported).2

/-- Ending an instance early lets no other one begin, and changes no other one. -/
theorem survivors_terminate (hs : c.toSession.Sound) (root : InstanceId) (error : FlowError)
    (isReported : Bool) :
    c.toSession.Survivors (c.terminate root error isReported).toSession := by
  cases hi : c.instances.get? root with
  | none => rw [terminate_eq_self hi]; exact .refl _
  | some i => exact (prunes_terminate hs hi error isReported).1.removes.survivors

/-! ## The end of a body -/

/-- Ending the instances that have been spared leaves no child behind. -/
theorem Prunes.terminateAll {spared : List InstanceId} (h : Prunes spared c c')
    (hs : c'.toSession.Sound) (error : FlowError) :
    Prunes [] c (c'.terminateAll spared error) := by
  induction spared generalizing c' with
  | nil => exact h
  | cons k rest ih =>
    have last : Prunes [] c' (c'.terminate k error false) := by
      cases hk : c'.instances.get? k with
      | none =>
        rw [terminate_eq_self hk]
        refine ⟨.refl, fun id j hj hgone => ?_⟩
        rw [hgone] at hj
        cases hj
      | some j => exact (prunes_terminate hs hk error false).1
    exact ih (h.trans last (get?_terminate_self hs k error false)) (last.removes.sound hs)

theorem prunes_complete (hs : c.toSession.Sound) (hi : c.instances.get? id = some i)
    (awake : i.wait? = none) : Prunes [] c (c.complete id) := by
  have hid := hs.id_eq hi
  have ends := ends_conclude hi hid awake
  rw [complete_eq hi hid]
  refine Prunes.terminateAll ⟨.single ⟨id, ends⟩, fun k j hj hgone child hchild => ?_⟩
    (ends.sound hs) _
  -- So far only the instance itself has ended. Its children are spared until it is their turn.
  by_cases hk : k = id
  · subst hk
    obtain rfl := Option.some.inj (hi.symm.trans hj)
    exact .inr hchild
  · have := ends.spared k hk (by rw [hj]; rfl)
    rw [hgone] at this
    cases this

/-- An instance that has come to the end of its body is gone. -/
theorem get?_complete_self (hs : c.toSession.Sound) (hi : c.instances.get? id = some i)
    (awake : i.wait? = none) : (c.complete id).instances.get? id = none := by
  have hid := hs.id_eq hi
  have ends := ends_conclude hi hid awake
  rw [complete_eq hi hid]
  have gone : ∀ (ids : List InstanceId) {d : Cascade}, d.toSession.Sound →
      d.instances.get? id = none →
        (d.terminateAll ids (.parentTerminated i.label)).instances.get? id = none := by
    intro ids d hd h
    induction ids generalizing d with
    | nil => exact h
    | cons k rest ih =>
      exact ih ((changes_terminate hd k _ false).sound hd)
        ((survivors_terminate hd k _ false).gone h)
  exact gone _ (ends.sound hs) ends.gone

end Cascade

end Dialogue
