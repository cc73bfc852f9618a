import Dialogue.Proofs.Session.Run

/-!
# The forest of instances

An instance that is started by another one stands below it, so the live instances of a session form
a forest. It is written down twice: a child knows its parent, and a parent lists the children that
may not outlive it. Both have to agree after everything that happens.

While an instance and what it has started are ended, one after the other, some children are still
live whose parent is not. So what is said of the children that are listed is kept by the end of
every single instance, but what is said of parents only by the end of all that goes down together.

## Main definitions

* `Session.Kinship` — what holds of parents and children even in the middle of an ending
* `Session.IsForest` — what holds between two operations
* `Session.Above` — from a child to its parent

## Main results

* `Cascade.Ends.kinship`, `Path.passes_kinship` — everything that happens keeps kinship
* `Session.isForest_applyAll` — after every run the live instances form a forest
-/

namespace Dialogue

open Relation (ReflTransGen)

/-! ## Kinship -/

/-- What ties an instance to others. -/
def Instance.links (i : Instance) : Option InstanceId × List InstanceId × Bool × Nat :=
  (i.parent, i.children, i.isDetached, i.depth)

/-- Parents and children agree about each other. -/
structure Session.Kinship (s : Session) : Prop where
  /-- What is listed as a child is a live instance that may not outlive its parent. -/
  listed : ∀ p i k, s.instances.get? p = some i → k ∈ i.children →
    ∃ j, s.instances.get? k = some j ∧ j.parent = some p ∧ j.isDetached = false
  /-- An instance that may outlive its parent forgets it when it does. -/
  rooted : ∀ k j p, s.instances.get? k = some j → j.isDetached = true → j.parent = some p →
    (s.instances.get? p).isSome
  /-- A child is younger than its parent, and stands one level below it. -/
  descends : ∀ k j p, s.instances.get? k = some j → j.parent = some p → p.number < k.number ∧
    ∀ i, s.instances.get? p = some i → j.depth = i.depth + 1

variable {s s' : Session}

/-- Kinship is about nothing but links. -/
theorem Session.Kinship.of_links (h : s.Kinship)
    (same : ∀ k, (s'.instances.get? k).map Instance.links =
      (s.instances.get? k).map Instance.links) : s'.Kinship := by
  -- An instance of one session has a counterpart in the other one.
  have back : ∀ {k j'}, s'.instances.get? k = some j' →
      ∃ j, s.instances.get? k = some j ∧ j.links = j'.links := by
    intro k j' hj'
    have := (same k).symm
    rw [hj', Option.map_some] at this
    exact Option.map_eq_some_iff.1 this
  have forth : ∀ {k j}, s.instances.get? k = some j →
      ∃ j', s'.instances.get? k = some j' ∧ j'.links = j.links := by
    intro k j hj
    have := same k
    rw [hj, Option.map_some] at this
    exact Option.map_eq_some_iff.1 this
  exact {
    listed p i' k hi' hk := by
      obtain ⟨i, hi, li⟩ := back hi'
      simp only [Instance.links, Prod.mk.injEq] at li
      obtain ⟨j, hj, hp, hd⟩ := h.listed p i k hi (li.2.1 ▸ hk)
      obtain ⟨j', hj', lj⟩ := forth hj
      simp only [Instance.links, Prod.mk.injEq] at lj
      exact ⟨j', hj', lj.1.trans hp, lj.2.2.1.trans hd⟩
    rooted k j' p hj' hd hp := by
      obtain ⟨j, hj, lj⟩ := back hj'
      simp only [Instance.links, Prod.mk.injEq] at lj
      obtain ⟨i, hi⟩ := Option.isSome_iff_exists.1
        (h.rooted k j p hj (lj.2.2.1.trans hd) (lj.1.trans hp))
      obtain ⟨i', hi', -⟩ := forth hi
      rw [hi']
      rfl
    descends k j' p hj' hp := by
      obtain ⟨j, hj, lj⟩ := back hj'
      simp only [Instance.links, Prod.mk.injEq] at lj
      obtain ⟨younger, below⟩ := h.descends k j p hj (lj.1.trans hp)
      refine ⟨younger, fun i' hi' => ?_⟩
      obtain ⟨i, hi, li⟩ := back hi'
      simp only [Instance.links, Prod.mk.injEq] at li
      rw [← lj.2.2.2, ← li.2.2.2]
      exact below i hi }

namespace Cascade

variable {c c' : Cascade} {id : InstanceId} {i i' : Instance} {w : Wait}

/-- Kinship is kept by a change of one instance that concerns something else. -/
theorem kinship_of_insert (live : c.instances.get? id = some i)
    (hc : c'.instances = c.instances.insert id i') (links : i'.links = i.links)
    (h : c.toSession.Kinship) : c'.toSession.Kinship := by
  refine h.of_links fun k => ?_
  rw [hc, Table.get?_insert]
  split
  · next hk => rw [hk, live, Option.map_some, Option.map_some, links]
  · rfl

/-! ### The end of an instance -/

theorem Ends.kinship (h : c.Ends id c') (hc : c.toSession.Kinship) : c'.toSession.Kinship := by
  obtain ⟨ended, live, unlinked⟩ := h.unlinked
  exact {
    listed p i' k hi' hk := by
      obtain ⟨i, hi, left⟩ := h.survivors p i' hi'
      obtain ⟨j, hj, hp, hd⟩ := hc.listed p i k hi (left.sublist.subset hk)
      -- What has ended has been struck off from the children of its parent.
      have hne : k ≠ id := by
        rintro rfl
        obtain rfl := Option.some.inj (hj.symm.trans live)
        exact (unlinked p i' hi').1 hp hk
      obtain ⟨j', hj'⟩ := Option.isSome_iff_exists.1 (h.spared k hne (by rw [hj]; rfl))
      obtain ⟨j₀, hj₀, leftk⟩ := h.survivors k j' hj'
      obtain rfl := Option.some.inj (hj.symm.trans hj₀)
      exact ⟨j', hj', (leftk.parent_eq hd).trans hp, leftk.isDetached.trans hd⟩
    rooted k j' p hj' hd hp := by
      obtain ⟨j, hj, left⟩ := h.survivors k j' hj'
      have before := hc.rooted k j p hj (left.isDetached.symm.trans hd) (left.parent_of p hp)
      -- The parent is not what has ended, for then the child would have forgotten it.
      refine h.spared p ?_ before
      rintro rfl
      exact (unlinked k j' hj').2 hd hp
    descends k j' p hj' hp := by
      obtain ⟨j, hj, leftk⟩ := h.survivors k j' hj'
      obtain ⟨younger, below⟩ := hc.descends k j p hj (leftk.parent_of p hp)
      refine ⟨younger, fun i' hi' => ?_⟩
      obtain ⟨i, hi, leftp⟩ := h.survivors p i' hi'
      rw [leftk.depth, leftp.depth]
      exact below i hi }

theorem Removes.kinship (h : Removes c c') (hc : c.toSession.Kinship) : c'.toSession.Kinship := by
  induction h with
  | refl => exact hc
  | tail _ last ih =>
    obtain ⟨id, e⟩ := last
    exact e.kinship ih

/-! ### The beginning of an instance -/

section Beginning

variable {flow : String} {args : Params} {parent : Option InstanceId} {isDetached : Bool}
variable {k : InstanceId} {j j' : Instance}

/-- An instance begins without children, one level below the one that has started it. -/
theorem exists_spawned (h : c.spawn flow args parent isDetached = some (id, c')) :
    ∃ j, c'.instances.get? id = some j ∧ j.parent = parent ∧ j.isDetached = isDetached ∧
      j.children = [] ∧
        ∀ p i, parent = some p → c.instances.get? p = some i → j.depth = i.depth + 1 := by
  obtain ⟨compiled, depth, instances, -, -, deeper, hget, rfl⟩ := begins_of_spawn h
  exact ⟨_, (hget id).trans (if_pos rfl), rfl, rfl, rfl, deeper⟩

/-- An instance that is live already stays as it is when another one begins. -/
theorem exists_of_spawn (h : c.spawn flow args parent isDetached = some (id, c')) (hk : k ≠ id)
    (hj : c.instances.get? k = some j) :
    ∃ j', c'.instances.get? k = some j' ∧ j'.parent = j.parent ∧ j'.isDetached = j.isDetached ∧
      j'.depth = j.depth := by
  obtain ⟨compiled, depth, -, hget, -⟩ := get?_spawn h
  rw [hget, if_neg hk, hj]
  refine ⟨_, rfl, ?_⟩
  split <;> exact ⟨rfl, rfl, rfl⟩

/-- Only the parent gets another child when an instance begins. -/
theorem exists_before_spawn (h : c.spawn flow args parent isDetached = some (id, c')) (hk : k ≠ id)
    (hj' : c'.instances.get? k = some j') :
    ∃ j, c.instances.get? k = some j ∧ j'.parent = j.parent ∧ j'.isDetached = j.isDetached ∧
      j'.depth = j.depth ∧
        ∀ n ∈ j'.children, n ∈ j.children ∨ n = id ∧ parent = some k ∧ isDetached = false := by
  obtain ⟨compiled, depth, -, hget, -⟩ := get?_spawn h
  rw [hget, if_neg hk] at hj'
  obtain ⟨j, hj, rfl⟩ := Option.map_eq_some_iff.1 hj'
  refine ⟨j, hj, ?_⟩
  split
  · next hp =>
    refine ⟨rfl, rfl, rfl, fun n hn => ?_⟩
    rcases List.mem_append.1 hn with hn | hn
    · exact .inl hn
    · exact .inr ⟨List.mem_singleton.1 hn, hp⟩
  · exact ⟨rfl, rfl, rfl, fun n hn => .inl hn⟩

theorem kinship_of_spawn (h : c.spawn flow args parent isDetached = some (id, c'))
    (live : ∀ p, parent = some p → (c.instances.get? p).isSome) (hs : c.toSession.Sound)
    (hc : c.toSession.Kinship) : c'.toSession.Kinship := by
  obtain ⟨new, hnew, newParent, newDetached, newChildren, newDepth⟩ := exists_spawned h
  -- An instance that is not younger than the others is another one than the one that begins.
  have older : ∀ {k : InstanceId}, k.number ≤ c.created → k ≠ id := by
    obtain ⟨-, -, rfl, -⟩ := get?_spawn h
    exact Id.ne_next
  exact {
    listed p i' k hi' hk := by
      by_cases hpid : p = id
      · obtain rfl := Option.some.inj (hnew.symm.trans (hpid ▸ hi'))
        rw [newChildren] at hk
        cases hk
      · obtain ⟨i, hi, -, -, -, children⟩ := exists_before_spawn h hpid hi'
        rcases children k hk with hk | ⟨rfl, hp, hd⟩
        · obtain ⟨j, hj, hp, hd⟩ := hc.listed p i k hi hk
          obtain ⟨j', hj', hp', hd', -⟩ := exists_of_spawn h (older (hs.instances k j hj).begun) hj
          exact ⟨j', hj', hp'.trans hp, hd'.trans hd⟩
        · exact ⟨new, hnew, newParent.trans hp, newDetached.trans hd⟩
    rooted k j' p hj' hd hp := by
      have before : (c.instances.get? p).isSome := by
        by_cases hk : k = id
        · obtain rfl := Option.some.inj (hnew.symm.trans (hk ▸ hj'))
          exact live p (newParent.symm.trans hp)
        · obtain ⟨j, hj, hp', hd', -⟩ := exists_before_spawn h hk hj'
          exact hc.rooted k j p hj (hd'.symm.trans hd) (hp'.symm.trans hp)
      obtain ⟨i, hi⟩ := Option.isSome_iff_exists.1 before
      obtain ⟨i', hi', -⟩ := exists_of_spawn h (older (hs.instances p i hi).begun) hi
      rw [hi']
      rfl
    descends k j' p hj' hp := by
      by_cases hk : k = id
      · subst hk
        obtain rfl := Option.some.inj (hnew.symm.trans hj')
        have hparent := newParent.symm.trans hp
        obtain ⟨i, hi⟩ := Option.isSome_iff_exists.1 (live p hparent)
        have begun := (hs.instances p i hi).begun
        obtain ⟨i₀, hi₀, -, -, hidepth⟩ := exists_of_spawn h (older begun) hi
        obtain ⟨-, -, rfl, -⟩ := get?_spawn h
        refine ⟨Nat.lt_succ_of_le begun, fun i' hi' => ?_⟩
        obtain rfl := Option.some.inj (hi'.symm.trans hi₀)
        rw [newDepth p i hparent hi, hidepth]
      · obtain ⟨j, hj, hp', -, hdepth, -⟩ := exists_before_spawn h hk hj'
        obtain ⟨younger, below⟩ := hc.descends k j p hj (hp'.symm.trans hp)
        refine ⟨younger, fun i' hi' => ?_⟩
        -- The parent is older than a child that is live already, so it is not what begins.
        have hpid : p ≠ id :=
          older (Nat.le_of_lt (Nat.lt_of_lt_of_le younger (hs.instances k j hj).begun))
        obtain ⟨i, hi, -, -, hidepth, -⟩ := exists_before_spawn h hpid hi'
        rw [hdepth, hidepth]
        exact below i hi }

end Beginning

/-! ### Everything that happens -/

theorem Change.kinship (h : c.Change c') (hs : c.toSession.Sound) (hc : c.toSession.Kinship) :
    c'.toSession.Kinship := by
  cases h with
  | note => exact hc.of_links fun _ => rfl
  | begin h live => exact kinship_of_spawn h live hs hc
  | call => exact hc.of_links fun _ => rfl
  | move live => exact kinship_of_insert live rfl rfl hc
  | cancel => exact hc.of_links fun _ => rfl
  | prune h => exact h.removes.kinship hc

theorem Suspends.kinship (h : c.Suspends id w c') (hc : c.toSession.Kinship) :
    c'.toSession.Kinship := by
  obtain ⟨live, -⟩ := h
  exact kinship_of_insert live rfl rfl hc

theorem Wakes.kinship (h : c.Wakes id w c') (hc : c.toSession.Kinship) :
    c'.toSession.Kinship := by
  obtain ⟨live, -⟩ := h
  exact kinship_of_insert live rfl rfl hc

end Cascade

/-- A session without instances has no kin. -/
theorem Session.kinship_of_empty (h : s.instances = ∅) : s.Kinship := by
  have none : ∀ k j, s.instances.get? k ≠ some j := fun k j hj => by
    rw [h] at hj
    cases hj
  exact ⟨fun p i _ hi => absurd hi (none p i), fun k j _ hj => absurd hj (none k j),
    fun k j _ hj => absurd hj (none k j)⟩

theorem Cascade.Passes.kinship {c c' : Cascade} (h : c.Passes c') (hs : c.toSession.Sound)
    (hc : c.toSession.Kinship) : c'.toSession.Kinship := by
  cases h with
  | change h => exact h.kinship hs hc
  | aside h => exact hc.of_links fun k => by rw [h.instances]
  | close instances => exact Session.kinship_of_empty instances

theorem Path.passes_kinship {c c' : Cascade} {ms : List Moment}
    (h : Path Cascade.Passes c ms c') (hs : c.toSession.Sound) (hc : c.toSession.Kinship) :
    c'.toSession.Kinship :=
  h.induct_of_sound hs hc (fun _ _ h => h.sound) (fun _ _ h => h.kinship)
    (fun _ _ _ _ h _ => h.kinship) fun _ _ _ _ h _ => h.kinship

/-! ## The forest -/

namespace Session

/-- The live instances form a forest: lists of children and parents say the same, children are
younger than their parents, and depths count the levels. -/
structure IsForest (s : Session) : Prop where
  /-- What is listed as a child stands right below the one that lists it, and may not outlive it. -/
  children : ∀ p i, s.instances.get? p = some i → ∀ k ∈ i.children,
    ∃ j, s.instances.get? k = some j ∧ j.isDetached = false ∧ p.number < k.number ∧
      j.parent = some p ∧ j.depth = i.depth + 1
  /-- What has a parent stands right below a live instance, which lists it unless it may outlive
  it. -/
  parent : ∀ k j p, s.instances.get? k = some j → j.parent = some p →
    ∃ i, s.instances.get? p = some i ∧ p.number < k.number ∧ j.depth = i.depth + 1 ∧
      (j.isDetached = true ∨ k ∈ i.children)

theorem Kinship.isForest (h : s.Kinship) (linked : s.Linked) : s.IsForest := by
  refine ⟨fun p i hi k hk => ?_, fun k j p hj hp => ?_⟩
  · obtain ⟨j, hj, hp, hd⟩ := h.listed p i k hi hk
    obtain ⟨younger, below⟩ := h.descends k j p hj hp
    exact ⟨j, hj, hd, younger, hp, below i hi⟩
  · obtain ⟨younger, below⟩ := h.descends k j p hj hp
    -- A child that may outlive its parent forgets it in time, and the others are listed.
    cases hd : j.isDetached with
    | true =>
      obtain ⟨i, hi⟩ := Option.isSome_iff_exists.1 (h.rooted k j p hj hd hp)
      exact ⟨i, hi, younger, below i hi, .inl rfl⟩
    | false =>
      obtain ⟨i, hi, listed⟩ := linked k j p hj hp hd
      exact ⟨i, hi, younger, below i hi, .inr listed⟩

/-- One instance is the parent of another one, which is live. -/
def Above (s : Session) (p k : InstanceId) : Prop :=
  ∃ j, s.instances.get? k = some j ∧ j.parent = some p

/-- In a forest one comes from every live instance to a root. -/
theorem IsForest.exists_root (h : s.IsForest) : ∀ {k : InstanceId} {j : Instance},
    s.instances.get? k = some j →
      ∃ r i, ReflTransGen s.Above r k ∧ s.instances.get? r = some i ∧ i.parent = none
  | k, j, hj => by
    cases hp : j.parent with
    | none => exact ⟨k, j, .refl, hj, hp⟩
    | some p =>
      obtain ⟨i, hi, younger, -⟩ := h.parent k j p hj hp
      obtain ⟨r, root, above, hr, parentless⟩ := h.exists_root hi
      exact ⟨r, root, above.tail ⟨j, hj, hp⟩, hr, parentless⟩
termination_by k => k.number

theorem kinship_new (name : String) (library : FlowLibrary) (limits : Limits) (context : Params) :
    (new name library limits context).Kinship :=
  kinship_of_empty rfl

/-- After every run the live instances form a forest, in which one comes from every instance to one
without a parent. Whatever is done from then on, an instance that may not outlive its parent is gone
as soon as the parent is. -/
theorem isForest_applyAll (name : String) (library : FlowLibrary) (limits : Limits)
    (context : Params) (os : List Operation) :
    let s := (new name library limits context).applyAll os
    s.IsForest ∧
      (∀ k j, s.instances.get? k = some j →
        ∃ r i, ReflTransGen s.Above r k ∧ s.instances.get? r = some i ∧ i.parent = none) ∧
      ∀ k j p, s.instances.get? k = some j → j.parent = some p → j.isDetached = false →
        ∀ later, (s.applyAll later).instances.get? p = none →
          (s.applyAll later).instances.get? k = none := by
  intro s
  have hs₀ := sound_new name library limits context
  have path := path_historyOf hs₀ os
  have sound : s.Sound := path.passes_sound hs₀
  have linked : s.Linked := path.passes_linked hs₀ (linked_new name library limits context)
  have kinship : s.Kinship := path.passes_kinship hs₀ (kinship_new name library limits context)
  have forest := kinship.isForest linked
  refine ⟨forest, fun k j => forest.exists_root, fun k j p hj hp attached later gone => ?_⟩
  have more := path_historyOf sound later
  -- The child is what it was if it is still live, and then its parent knows it and is live too.
  rw [Option.eq_none_iff_forall_ne_some]
  intro j' hj'
  obtain ⟨j₀, hj₀, detached, kept, -⟩ :=
    more.passes_later.instances k j' (sound.instances k j hj).begun hj'
  obtain rfl := Option.some.inj (hj.symm.trans hj₀)
  obtain ⟨i, hi, -⟩ := more.passes_linked sound linked k j' p hj' ((kept attached).trans hp)
    (detached.trans attached)
  have hi : (s.applyAll later).instances.get? p = some i := hi
  rw [gone] at hi
  cases hi

end Session

end Dialogue
