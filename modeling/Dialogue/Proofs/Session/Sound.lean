import Dialogue.Proofs.Session.Change

/-!
# Sound sessions

Some things hold of a session at any time, also in the middle of a turn: a suspended instance stands
at the `select` that it waits at, what is armed has been issued before, and what has ended is
remembered apart from what is live. Each change keeps them.

## Main definitions

* `Session.Sound` — what holds at any time
* `Session.Linked` — a parent knows the children that may not outlive it

## Main results

* `Cascade.Change.sound`, `Cascade.Suspends.sound`, `Cascade.Wakes.sound`
* `Cascade.Change.linked`, `Cascade.Suspends.linked`, `Cascade.Wakes.linked`
-/

namespace Dialogue

/-- What an arm is armed with has begun or has been issued. -/
def Armed.IsIssued (s : Session) : Armed → Prop
  | .event => True
  | .child k => k.number ≤ s.created
  | .call k => k.number ≤ s.calls.issued

/-- A wait of an instance of a session is in order. -/
structure Wait.Sound (s : Session) (i : Instance) (w : Wait) : Prop where
  fits : w.Fits i
  issued : ∀ a ∈ w.arms, a.IsIssued s
  timer : ∀ t, w.timer = some t → t.number ≤ s.timers.issued
  owned : ∀ k call, .call k ∈ w.arms → s.calls.pending.get? k = some call → call.owner = i.id

/-- A live instance of a session is in order. -/
structure Instance.Sound (s : Session) (id : InstanceId) (i : Instance) : Prop where
  id_eq : i.id = id
  live : i.phase.isLive = true
  begun : id.number ≤ s.created
  unarchived : s.archive.get? id = none
  bound : ∀ p ∈ i.flow.definition.parameters, i.locals.contains p = true
  waits : ∀ w, i.phase = .waiting w → w.Sound s i

/-- The instances of a session, those it remembers and its calls are in order. -/
structure Session.Sound (s : Session) : Prop where
  instances : ∀ id i, s.instances.get? id = some i → i.Sound s id
  archive : ∀ id i, s.archive.get? id = some i →
    i.id = id ∧ i.phase.isLive = false ∧ id.number ≤ s.created
  archiveSize : s.archive.size ≤ s.limits.archiveSize
  calls : ∀ k call, s.calls.pending.get? k = some call → k.number ≤ s.calls.issued

/-- The parent of an instance that may not outlive it is live and knows it. -/
def Session.Linked (s : Session) : Prop :=
  ∀ id i p, s.instances.get? id = some i → i.parent = some p → i.isDetached = false →
    ∃ j, s.instances.get? p = some j ∧ id ∈ j.children

variable {s s' : Session} {id : InstanceId} {i i' : Instance} {w : Wait}

/-! ## What stays in order -/

theorem Armed.IsIssued.later {a : Armed} (h : a.IsIssued s) (l : s.Later s') : a.IsIssued s' := by
  cases a with
  | event => trivial
  | child k => exact Nat.le_trans h l.created
  | call k => exact Nat.le_trans h l.calls.issued

theorem Wait.Sound.later (h : w.Sound s i) (l : s.Later s') (hid : i'.id = i.id)
    (hflow : i'.flow = i.flow) (hpc : i'.pc = i.pc) : w.Sound s' i' where
  fits := ⟨h.fits.place.trans hpc.symm, by rw [hflow, hpc]; exact h.fits.select⟩
  issued a ha := (h.issued a ha).later l
  timer t ht := Nat.le_trans (h.timer t ht) l.timers.issued
  owned k call' hk hcall := by
    obtain ⟨call, hc, ho, -⟩ := l.calls.pending k call' (h.issued _ hk) hcall
    exact ho.trans ((h.owned k call hk hc).trans hid.symm)

theorem Instance.Sound.later (h : i.Sound s id) (l : s.Later s')
    (unarchived : s'.archive.get? id = none) (hid : i'.id = i.id) (hflow : i'.flow = i.flow)
    (hpc : i'.pc = i.pc) (hlocals : i'.locals = i.locals) (hphase : i'.phase = i.phase) :
    i'.Sound s' id where
  id_eq := hid.trans h.id_eq
  live := hphase ▸ h.live
  begun := Nat.le_trans h.begun l.created
  unarchived
  bound := by rw [hflow, hlocals]; exact h.bound
  waits w hw := (h.waits w (hphase ▸ hw)).later l hid hflow hpc

namespace Session.Sound

theorem archive_later (h : s.Sound) (l : s.Later s') (archive : s'.archive = s.archive) :
    ∀ id i, s'.archive.get? id = some i →
      i.id = id ∧ i.phase.isLive = false ∧ id.number ≤ s'.created := by
  intro id i hi
  rw [archive] at hi
  obtain ⟨hid, hlive, hn⟩ := h.archive id i hi
  exact ⟨hid, hlive, Nat.le_trans hn l.created⟩

theorem id_eq (h : s.Sound) (hi : s.instances.get? id = some i) : i.id = id :=
  (h.instances id i hi).id_eq

/-- A session stays sound when instances only lose links and nothing is archived. -/
theorem of_survivors (h : s.Sound) (l : s.Later s') (sv : s.Survivors s')
    (archive : s'.archive = s.archive) (limits : s'.limits = s.limits)
    (calls : ∀ k call, s'.calls.pending.get? k = some call → k.number ≤ s'.calls.issued) :
    s'.Sound where
  instances id i' hi' := by
    obtain ⟨i, hi, left⟩ := sv id i' hi'
    have hs := h.instances id i hi
    exact hs.later l (archive ▸ hs.unarchived) left.id left.flow left.pc left.locals left.phase
  archive := h.archive_later l archive
  archiveSize := by rw [archive, limits]; exact h.archiveSize
  calls

/-- A session stays sound when one instance is replaced by one that is in order. -/
theorem of_insert (h : s.Sound) (l : s.Later s') (hs : s'.instances = s.instances.insert id i')
    (hi' : i'.Sound s' id) (archive : s'.archive = s.archive) (limits : s'.limits = s.limits)
    (calls : s'.calls = s.calls) : s'.Sound where
  instances k j hj := by
    rw [hs, Table.get?_insert] at hj
    split at hj
    · next hk =>
      obtain rfl := Option.some.inj hj
      exact hk ▸ hi'
    · have hsj := h.instances k j hj
      exact hsj.later l (archive ▸ hsj.unarchived) rfl rfl rfl rfl rfl
  archive := h.archive_later l archive
  archiveSize := by rw [archive, limits]; exact h.archiveSize
  calls := by rw [calls]; exact h.calls

/-- What has been issued is not the next call. -/
theorem calls_of_loses (h : s.Sound) {d : Calls} (loses : s.calls.Loses d) :
    ∀ k call, d.pending.get? k = some call → k.number ≤ d.issued := by
  intro k call hk
  obtain ⟨call', hk', -⟩ := loses.pending k call hk
  rw [loses.issued]
  exact h.calls k call' hk'

/-- What an arm stands for has been issued. -/
theorem isIssued (h : s.Sound) {a : Armed} (stands : s.Stands id a) : a.IsIssued s := by
  cases a with
  | event => trivial
  | child k =>
    obtain ⟨j, hj, -⟩ := stands
    exact (h.instances k j hj).begun
  | call k =>
    obtain ⟨call, hk, -⟩ := stands
    exact h.calls k call hk

end Session.Sound

/-! ## Every change keeps a session sound -/

namespace Cascade

variable {c c' : Cascade}

theorem Ends.sound (h : c.Ends id c') (hs : c.toSession.Sound) : c'.toSession.Sound := by
  obtain ⟨ended, hid, hlive, harchive⟩ := h.archive
  have begun : id.number ≤ c.created := by
    obtain ⟨i, hi⟩ := Option.isSome_iff_exists.1 h.live
    exact (hs.instances id i hi).begun
  -- What is archived now has just ended, or has been archived before.
  have archived : ∀ k i, c'.archive.get? k = some i →
      k = id ∧ i = ended ∨ c.archive.get? k = some i := by
    intro k i hk
    rw [harchive] at hk
    have hk := Table.get?_of_keepLast hk
    rw [Table.get?_insert] at hk
    split at hk
    · next heq => exact .inl ⟨heq, (Option.some.inj hk).symm⟩
    · exact .inr hk
  refine ⟨fun k i' hi' => ?_, fun k i hk => ?_, ?_, hs.calls_of_loses h.calls⟩
  · obtain ⟨i, hi, left⟩ := h.survivors k i' hi'
    refine (hs.instances k i hi).later h.later ?_ left.id left.flow left.pc left.locals left.phase
    rw [Option.eq_none_iff_forall_ne_some]
    intro j hj
    -- So nothing live is archived: it has not ended, and it was not archived before.
    rcases archived k j hj with ⟨rfl, -⟩ | hj
    · have := hi'.symm.trans h.gone
      cases this
    · rw [(hs.instances k i hi).unarchived] at hj
      cases hj
  · rw [h.created]
    rcases archived k i hk with ⟨rfl, rfl⟩ | hk
    · exact ⟨hid, hlive, begun⟩
    · exact hs.archive k i hk
  · rw [harchive, h.limits]
    exact Table.size_keepLast_le _ _

theorem Removes.sound (h : Removes c c') (hs : c.toSession.Sound) : c'.toSession.Sound := by
  induction h with
  | refl => exact hs
  | tail _ last ih =>
    obtain ⟨id, e⟩ := last
    exact e.sound ih

/-- A new instance has a value for each of its parameters. -/
theorem contains_begin {flow : CompiledFlow} {args : Params} {parent : Option InstanceId}
    {depth : Nat} {isDetached : Bool} (p : String) (hp : p ∈ flow.definition.parameters) :
    (Instance.begin id flow args parent depth isDetached).locals.contains p = true := by
  refine Table.contains_ofList ?_
  simpa [Function.comp_def] using hp

theorem sound_of_spawn {flow args parent isDetached}
    (h : c.spawn flow args parent isDetached = some (id, c')) (hs : c.toSession.Sound) :
    c'.toSession.Sound := by
  obtain ⟨compiled, depth, rfl, hget, -⟩ := get?_spawn h
  obtain ⟨created, archive, limits, -, calls, -⟩ := spawn_frame h
  have later := later_of_spawn h
  refine ⟨fun k i' hi' => ?_, hs.archive_later later archive, ?_, ?_⟩
  · rw [hget] at hi'
    split at hi'
    · next hk =>
      subst hk
      obtain rfl := Option.some.inj hi'
      refine ⟨rfl, rfl, Nat.le_of_eq created.symm, ?_, contains_begin, fun w hw => by cases hw⟩
      -- The identifier is new, so nothing that is remembered has it.
      rw [archive, Option.eq_none_iff_forall_ne_some]
      intro i hi
      exact Nat.not_succ_le_self _ (hs.archive _ i hi).2.2
    · obtain ⟨i, hi, rfl⟩ := Option.map_eq_some_iff.1 hi'
      have hsi := hs.instances k i hi
      split <;> exact hsi.later later (archive ▸ hsi.unarchived) rfl rfl rfl rfl rfl
  · rw [archive, limits]
    exact hs.archiveSize
  · rw [calls]
    exact hs.calls

theorem Change.sound (h : c.Change c') (hs : c.toSession.Sound) : c'.toSession.Sound := by
  have later := h.later
  cases h with
  | note => exact hs.of_survivors later (.refl _) rfl rfl hs.calls
  | begin h _ => exact sound_of_spawn h hs
  | call owner action params =>
    refine hs.of_survivors later (.refl _) rfl rfl fun k call hk => ?_
    rw [Calls.get?_start] at hk
    split at hk
    · next heq => exact heq ▸ Nat.le_refl _
    · exact Nat.le_succ_of_le (hs.calls k call hk)
  | @move id i live running pc locals kept =>
    -- A running instance has no wait that might not fit to its new place.
    have hsi := hs.instances id i live
    refine hs.of_insert later rfl ⟨hsi.id_eq, hsi.live, hsi.begun, hsi.unarchived,
      fun p hp => kept p (hsi.bound p hp), fun w hw => ?_⟩ rfl rfl rfl
    have := running.symm.trans hw
    cases this
  | cancel _ =>
    exact hs.of_survivors later (.refl _) rfl rfl (hs.calls_of_loses (c.calls.loses_cancel _))
  | prune h => exact h.removes.sound hs

theorem Suspends.sound (h : c.Suspends id w c') (hs : c.toSession.Sound) : c'.toSession.Sound := by
  have later := h.later
  obtain ⟨live, running, fits, stands, timer, -⟩ := h
  have hsi := hs.instances id _ live
  refine hs.of_insert later rfl ⟨hsi.id_eq, rfl, hsi.begun, hsi.unarchived, hsi.bound, ?_⟩
    rfl rfl rfl
  intro w' hw'
  obtain rfl := Phase.waiting.inj hw'
  refine ⟨⟨fits.place, fits.select⟩, fun a ha => (hs.isIssued (stands a ha)).later later,
    fun t ht => ?_, fun k call hk hcall => ?_⟩
  -- The timer has got the last number that was issued.
  · rcases timer with ⟨hnone, -⟩ | ⟨deadline, hsome, rfl, -⟩
    · rw [hnone] at ht
      cases ht
    · obtain rfl := Option.some.inj (hsome.symm.trans ht)
      exact Nat.le_refl _
  · obtain ⟨call', hk', ho, -⟩ := stands _ hk
    obtain rfl := Option.some.inj (hk'.symm.trans hcall)
    exact ho.trans hsi.id_eq.symm

theorem Wakes.sound (h : c.Wakes id w c') (hs : c.toSession.Sound) : c'.toSession.Sound := by
  have later := h.later
  obtain ⟨live, waiting⟩ := h
  have hsi := hs.instances id _ live
  exact hs.of_insert later rfl
    ⟨hsi.id_eq, rfl, hsi.begun, hsi.unarchived, hsi.bound, fun w hw => by cases hw⟩ rfl rfl rfl

/-! ## Every change keeps the links -/

/-- The links are kept by a change of one instance that concerns something else. -/
theorem linked_of_insert (live : c.instances.get? id = some i)
    (hc : c'.instances = c.instances.insert id i') (hp : i'.parent = i.parent)
    (hd : i'.isDetached = i.isDetached) (hch : i'.children = i.children)
    (hl : c.toSession.Linked) : c'.toSession.Linked := by
  -- Every instance has had the parent that it has.
  have back : ∀ k j', c'.instances.get? k = some j' → ∃ j, c.instances.get? k = some j ∧
      j'.parent = j.parent ∧ j'.isDetached = j.isDetached := by
    intro k j' hj'
    rw [hc, Table.get?_insert] at hj'
    split at hj'
    · next hk =>
      obtain rfl := Option.some.inj hj'
      exact ⟨i, hk ▸ live, hp, hd⟩
    · exact ⟨j', hj', rfl, rfl⟩
  intro k j' p hj' hjp hjd
  -- If the parent is the instance that has changed, it still knows the same children.
  obtain ⟨j, hj, hp', hd'⟩ := back k j' hj'
  obtain ⟨q, hq, hk⟩ := hl k j p hj (hp' ▸ hjp) (hd' ▸ hjd)
  rw [hc, Table.get?_insert]
  split
  · next hpid =>
    subst hpid
    obtain rfl := Option.some.inj (live.symm.trans hq)
    exact ⟨i', rfl, hch ▸ hk⟩
  · exact ⟨q, hq, hk⟩

theorem linked_of_spawn {flow args parent isDetached}
    (h : c.spawn flow args parent isDetached = some (id, c'))
    (live : ∀ p, parent = some p → (c.instances.get? p).isSome) (hs : c.toSession.Sound)
    (hl : c.toSession.Linked) : c'.toSession.Linked := by
  obtain ⟨compiled, depth, rfl, hget, -⟩ := get?_spawn h
  intro k i' p hi' hp hd
  rw [hget] at hi'
  -- The parent is older than the instance that begins, whichever child is meant.
  have older : ∀ j, c.instances.get? p = some j → p ≠ ⟨c.created + 1⟩ := fun j hj =>
    Id.ne_next (hs.instances p j hj).begun
  split at hi'
  · next hk =>
    subst hk
    obtain rfl := Option.some.inj hi'
    obtain ⟨j, hj⟩ := Option.isSome_iff_exists.1 (live p hp)
    refine ⟨{ j with children := j.children ++ [⟨c.created + 1⟩] }, ?_, by simp⟩
    rw [hget, if_neg (older j hj), hj]
    have hp : parent = some p := hp
    have hd : isDetached = false := hd
    simp [hp, hd]
  · obtain ⟨i, hi, rfl⟩ := Option.map_eq_some_iff.1 hi'
    have hi₀ : i.parent = some p ∧ i.isDetached = false := by
      split at hp <;> split at hd <;> exact ⟨hp, hd⟩
    obtain ⟨j, hj, hk⟩ := hl k i p hi hi₀.1 hi₀.2
    rw [hget, if_neg (older j hj), hj]
    refine ⟨_, rfl, ?_⟩
    split
    · exact List.mem_append_left _ hk
    · exact hk

theorem Prunes.linked (h : Prunes [] c c') (hl : c.toSession.Linked) : c'.toSession.Linked := by
  have survivors := h.removes.survivors
  intro id i' p hi' hp hd
  obtain ⟨i, hi, left⟩ := survivors id i' hi'
  obtain ⟨j, hj, hid⟩ := hl id i p hi (left.parent_of p hp) (left.isDetached ▸ hd)
  have live : c'.instances.get? id ≠ none := by rw [hi']; exact Option.some_ne_none _
  -- If the parent had ended, the child would have ended with it.
  cases hp' : c'.instances.get? p with
  | none =>
    have := h.closed p j hj hp' id hid
    exact absurd this (not_or.2 ⟨live, List.not_mem_nil⟩)
  | some j' =>
    obtain ⟨j₀, hj₀, leftp⟩ := survivors p j' hp'
    obtain rfl := Option.some.inj (hj.symm.trans hj₀)
    exact ⟨j', rfl, (leftp.children id hid).resolve_right live⟩

theorem Change.linked (h : c.Change c') (hs : c.toSession.Sound) (hl : c.toSession.Linked) :
    c'.toSession.Linked := by
  cases h with
  | note => exact hl
  | begin h live => exact linked_of_spawn h live hs hl
  | call => exact hl
  | move live => exact linked_of_insert live rfl rfl rfl rfl hl
  | cancel => exact hl
  | prune h => exact h.linked hl

theorem Suspends.linked (h : c.Suspends id w c') (hl : c.toSession.Linked) :
    c'.toSession.Linked := by
  obtain ⟨live, -⟩ := h
  exact linked_of_insert live rfl rfl rfl rfl hl

theorem Wakes.linked (h : c.Wakes id w c') (hl : c.toSession.Linked) : c'.toSession.Linked := by
  obtain ⟨live, -⟩ := h
  exact linked_of_insert live rfl rfl rfl rfl hl

end Cascade

end Dialogue
