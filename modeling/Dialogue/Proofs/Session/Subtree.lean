import Dialogue.Proofs.Session.Forest
import Dialogue.Proofs.Session.Suspension

/-!
# What goes down together, and in which order

Whoever goes down with an instance is found by a search that keeps a list of instances to be looked
at. In a forest nothing is put on this list twice, and nothing that has been looked at comes onto it
again. So each instance is followed by what stands below it, child after child, and since children
are listed in the order in which they have begun, that is the order of their identifiers.

The search comes to the instances that are attached to the first one, and to no others.

## Main definitions

* `Instance.Preorder` — each instance followed by what stands below it
* `Instance.Searches` — what there is still to be looked at in a search
* `Session.ByAge` — children are listed in the order in which they have begun

## Main results

* `Instance.Searches.preorder` — the search lists instances in preorder
* `Session.mem_subtree_iff` — what is found in a forest
* `Cascade.Passes.byAge` — children are listed by age at any time
-/

namespace Dialogue

namespace Instance

variable {live live' : Table InstanceId Instance} {ids ks : List InstanceId}
  {id k p root : InstanceId} {i : Instance}

/-! ## Preorder -/

/-- The second list is the first one in preorder: each instance is followed by what stands below it,
and only then by the next one. -/
inductive Preorder (live : Table InstanceId Instance) :
    List InstanceId → List InstanceId → Prop
  | nil : Preorder live [] []
  | cons {id i rest below behind} (found : live.get? id = some i)
    (children : Preorder live i.children below) (others : Preorder live rest behind) :
    Preorder live (id :: rest) (id :: (below ++ behind))

theorem Preorder.mono (h : Preorder live ids ks)
    (sub : ∀ k i, live.get? k = some i → live'.get? k = some i) : Preorder live' ids ks := by
  induction h with
  | nil => exact .nil
  | cons found _ _ children others => exact .cons (sub _ _ found) children others

theorem Preorder.of_append {as bs : List InstanceId} (h : Preorder live (as ++ bs) ks) :
    ∃ ls ms, ks = ls ++ ms ∧ Preorder live as ls ∧ Preorder live bs ms := by
  induction as generalizing ks with
  | nil => exact ⟨[], ks, rfl, .nil, h⟩
  | cons a rest ih =>
    cases h with
    | @cons _ _ _ below _ found children others =>
      obtain ⟨ls, ms, rfl, first, second⟩ := ih others
      exact ⟨_, ms, by rw [List.cons_append, List.append_assoc], .cons found children first, second⟩

/-! ## The search -/

theorem isSome_of_mem_subtree (hk : k ∈ subtree live ids) : (live.get? k).isSome := by
  fun_induction subtree live ids with
  | case1 => cases hk
  | case2 live ids id i rest h ih =>
    rcases List.mem_cons.1 hk with rfl | hk
    · rw [get?_of_firstLive? h]
      rfl
    · have later := ih hk
      rw [Table.get?_erase] at later
      split at later
      · cases later
      · exact later

/-- Nothing is found twice. -/
theorem nodup_subtree (live : Table InstanceId Instance) (ids : List InstanceId) :
    (subtree live ids).Nodup := by
  fun_induction subtree live ids with
  | case1 => exact .nil
  | case2 live ids id i rest h ih =>
    refine List.nodup_cons.2 ⟨fun again => ?_, ih⟩
    have erased := isSome_of_mem_subtree again
    rw [Table.get?_erase, if_pos rfl] at erased
    cases erased

/-- A search that has begun with an instance, on its way. All that is to be looked at is still live
in the table of what has not been looked at, but its parent is not. What stands below an instance
that has not been looked at is not yet on the list. -/
structure Searches (root : InstanceId) (live : Table InstanceId Instance)
    (ids : List InstanceId) : Prop where
  nodup : ids.Nodup
  ready : ∀ k ∈ ids, root.number ≤ k.number ∧ ∃ j, live.get? k = some j ∧
    ∀ p, j.parent = some p → root.number ≤ p.number → live.get? p = none
  below : ∀ p i, live.get? p = some i → root.number ≤ p.number → i.children.Nodup ∧
    ∀ k ∈ i.children, k ∉ ids ∧ p.number < k.number ∧
      ∃ j, live.get? k = some j ∧ j.parent = some p

/-- The search goes on with the children of what is looked at. -/
theorem Searches.next {rest : List InstanceId} (h : Searches root live (id :: rest))
    (hi : live.get? id = some i) : Searches root (live.erase id) (i.children ++ rest) := by
  obtain ⟨absent, nodup⟩ := List.nodup_cons.1 h.nodup
  obtain ⟨younger, -⟩ := h.ready id List.mem_cons_self
  obtain ⟨once, children⟩ := h.below id i hi younger
  have kept {k : InstanceId} (hk : k ≠ id) : (live.erase id).get? k = live.get? k := by
    rw [Table.get?_erase, if_neg hk]
  have gone : (live.erase id).get? id = none := by rw [Table.get?_erase, if_pos rfl]
  have other {k : InstanceId} (hk : k ∉ id :: rest) : k ≠ id := fun same =>
    hk (same ▸ List.mem_cons_self)
  refine ⟨?_, fun k hk => ?_, fun p j hj hp => ?_⟩
  · refine List.nodup_append.2 ⟨once, nodup, fun a ha b hb same => ?_⟩
    exact (children a ha).1 (List.mem_cons_of_mem _ (same ▸ hb))
  · rcases List.mem_append.1 hk with hk | hk
    · obtain ⟨new, older, j, hj, parent⟩ := children k hk
      refine ⟨Nat.le_of_lt (Nat.lt_of_le_of_lt younger older), j, ?_, fun p hp _ => ?_⟩
      · rw [kept (other new), hj]
      · obtain rfl := Option.some.inj (parent.symm.trans hp)
        exact gone
    · obtain ⟨least, j, hj, orphan⟩ := h.ready k (List.mem_cons_of_mem _ hk)
      refine ⟨least, j, ?_, fun p hp le => ?_⟩
      · rw [kept fun same => absent (same ▸ hk), hj]
      · by_cases hpid : p = id
        · exact hpid ▸ gone
        · rw [kept hpid]
          exact orphan p hp le
  · have hpid : p ≠ id := by
      rintro rfl
      rw [gone] at hj
      cases hj
    rw [kept hpid] at hj
    obtain ⟨nodup, listed⟩ := h.below p j hj hp
    refine ⟨nodup, fun k hk => ?_⟩
    obtain ⟨new, older, j', hj', parent⟩ := listed k hk
    refine ⟨fun twice => ?_, older, j', by rw [kept (other new), hj'], parent⟩
    -- It is no child of what is looked at, since it has one parent only.
    rcases List.mem_append.1 twice with twice | twice
    · obtain ⟨-, -, j'', hj'', parent'⟩ := children k twice
      obtain rfl := Option.some.inj (hj'.symm.trans hj'')
      exact hpid (Option.some.inj (parent.symm.trans parent'))
    · exact new (List.mem_cons_of_mem _ twice)

/-- What is on the list is live, so the search takes the first of it. -/
theorem Searches.eq_cons {rest : List InstanceId} (h : Searches root live ids)
    (first : firstLive? live ids = some (id, i, rest)) : ids = id :: rest := by
  cases ids with
  | nil => cases first
  | cons k ks =>
    obtain ⟨-, j, hj, -⟩ := h.ready k List.mem_cons_self
    rw [firstLive?, hj] at first
    cases first
    rfl

/-- A search lists instances in preorder. -/
theorem Searches.preorder (h : Searches root live ids) :
    Preorder live ids (subtree live ids) := by
  fun_induction subtree live ids with
  | case1 live ids first =>
    cases ids with
    | nil => exact .nil
    | cons k ks =>
      obtain ⟨-, j, hj, -⟩ := h.ready k List.mem_cons_self
      rw [firstLive?_eq_none first k List.mem_cons_self] at hj
      cases hj
  | case2 live ids id i rest first ih =>
    obtain rfl := h.eq_cons first
    have hi := get?_of_firstLive? first
    obtain ⟨below, behind, found, children, others⟩ := (ih (h.next hi)).of_append
    have sub : ∀ k j, (live.erase id).get? k = some j → live.get? k = some j := by
      intro k j hj
      rw [Table.get?_erase] at hj
      split at hj
      · cases hj
      · exact hj
    rw [found]
    exact .cons hi (children.mono sub) (others.mono sub)

/-- Nobody that is found is older than whom the search has begun with. -/
theorem Searches.least (h : Searches root live ids) :
    ∀ k ∈ subtree live ids, root.number ≤ k.number :=
  subtree_induction (fun k hk => (h.ready k hk).1) fun p i hi hp k hk =>
    Nat.le_of_lt (Nat.lt_of_le_of_lt hp (((h.below p i hi hp).2 k hk).2.1))

/-- Nobody is found before its parent. -/
theorem Searches.parents (h : Searches root live ids) : (subtree live ids).Pairwise fun a b =>
    ∀ i, live.get? a = some i → i.parent ≠ some b := by
  fun_induction subtree live ids with
  | case1 => exact .nil
  | case2 live ids id i rest first ih =>
    obtain rfl := h.eq_cons first
    have hi := get?_of_firstLive? first
    have next := h.next hi
    -- What is found later is not what has been found first.
    have unlike {k : InstanceId} (hk : k ∈ subtree (live.erase id) (i.children ++ rest)) :
        (live.erase id).get? k = live.get? k := by
      have found := isSome_of_mem_subtree hk
      rw [Table.get?_erase] at found ⊢
      split at found
      · cases found
      · next other => rw [if_neg other]
    refine List.pairwise_cons.2 ⟨fun b hb j hj parent => ?_, ?_⟩
    · obtain ⟨-, j', hj', orphan⟩ := h.ready id List.mem_cons_self
      obtain rfl := Option.some.inj (hj.symm.trans hj')
      have found := isSome_of_mem_subtree hb
      rw [unlike hb, orphan b parent (next.least b hb)] at found
      cases found
    · refine (ih next).imp_of_mem fun {a b} ha _ apart j hj => ?_
      exact apart j (unlike ha ▸ hj)

end Instance

/-! ## Children by age -/

/-- Children are listed in the order in which they have begun. -/
def Session.ByAge (s : Session) : Prop :=
  ∀ p i, s.instances.get? p = some i → i.children.Pairwise fun a b => a.number < b.number

namespace Cascade

variable {c c' : Cascade} {id : InstanceId} {i i' : Instance} {w : Wait}

theorem byAge_of_survivors (h : c.toSession.ByAge) (sv : c.toSession.Survivors c'.toSession) :
    c'.toSession.ByAge := by
  intro p i' hi'
  obtain ⟨i, hi, left⟩ := sv p i' hi'
  exact (h p i hi).sublist left.sublist

theorem byAge_of_insert (h : c.toSession.ByAge) (live : c.instances.get? id = some i)
    (hc : c'.instances = c.instances.insert id i') (children : i'.children = i.children) :
    c'.toSession.ByAge := by
  intro p j hj
  rw [hc, Table.get?_insert] at hj
  split at hj
  · obtain rfl := Option.some.inj hj
    exact children ▸ h id i live
  · exact h p j hj

/-- Whoever begins is younger than all that have begun before. -/
theorem byAge_of_spawn {flow : String} {args : Params} {parent : Option InstanceId}
    {isDetached : Bool} (spawned : c.spawn flow args parent isDetached = some (id, c'))
    (hs : c.toSession.Sound) (kin : c.toSession.Kinship) (h : c.toSession.ByAge) :
    c'.toSession.ByAge := by
  obtain ⟨compiled, depth, rfl, hget, -⟩ := get?_spawn spawned
  intro p j hj
  rw [hget] at hj
  split at hj
  · obtain rfl := Option.some.inj hj
    exact .nil
  · obtain ⟨i, hi, rfl⟩ := Option.map_eq_some_iff.1 hj
    split
    · refine List.pairwise_append.2 ⟨h p i hi, List.pairwise_singleton .., fun a ha b hb => ?_⟩
      obtain ⟨k, hk, -⟩ := kin.listed p i a hi ha
      obtain rfl := List.mem_singleton.1 hb
      exact Nat.lt_succ_of_le (hs.instances a k hk).begun
    · exact h p i hi

theorem Change.byAge (h : c.Change c') (hs : c.toSession.Sound) (kin : c.toSession.Kinship)
    (hc : c.toSession.ByAge) : c'.toSession.ByAge := by
  cases h with
  | begin spawned _ => exact byAge_of_spawn spawned hs kin hc
  | move live => exact byAge_of_insert hc live rfl rfl
  | prune h => exact byAge_of_survivors hc h.removes.survivors
  | _ => exact hc

theorem Passes.byAge (h : c.Passes c') (hs : c.toSession.Sound) (kin : c.toSession.Kinship)
    (hc : c.toSession.ByAge) : c'.toSession.ByAge := by
  cases h with
  | change h => exact h.byAge hs kin hc
  | aside h => exact byAge_of_survivors hc (.of_eq h.instances)
  | close instances =>
    intro p i hi
    rw [instances] at hi
    cases hi

theorem Suspends.byAge (h : c.Suspends id w c') (hc : c.toSession.ByAge) :
    c'.toSession.ByAge := by
  obtain ⟨live, -⟩ := h
  exact byAge_of_insert hc live rfl rfl

theorem Wakes.byAge (h : c.Wakes id w c') (hc : c.toSession.ByAge) : c'.toSession.ByAge := by
  obtain ⟨live, -⟩ := h
  exact byAge_of_insert hc live rfl rfl

end Cascade

/-! ## The subtree of an instance -/

namespace Session

variable {s : Session} {k p root : InstanceId} {i : Instance}

/-- Whoever is attached to another instance has a parent that is attached to it. -/
theorem Attached.parent (h : s.Attached root k) (other : k ≠ root)
    (hi : s.instances.get? k = some i) : ∃ p, i.parent = some p ∧ s.Attached root p := by
  cases h with
  | root => exact absurd rfl other
  | child above live parent _ =>
    obtain rfl := Option.some.inj (live.symm.trans hi)
    exact ⟨_, parent, above⟩

/-- Whoever is attached to an instance is not older. -/
theorem Attached.least (kin : s.Kinship) (h : s.Attached root k) : root.number ≤ k.number := by
  induction h with
  | root => exact Nat.le_refl _
  | child _ live parent _ ih =>
    exact Nat.le_trans ih (Nat.le_of_lt (kin.descends _ _ _ live parent).1)

/-- What is found below a live instance is what is attached to it. -/
theorem mem_subtree_iff (kin : s.Kinship) (linked : s.Linked)
    (hi : s.instances.get? root = some i) :
    k ∈ Instance.subtree s.instances [root] ↔ s.Attached root k := by
  refine ⟨fun hk => ?_, fun h => ?_⟩
  · refine Instance.subtree_induction (P := s.Attached root) (fun k hk => ?_)
      (fun p i hi above k hk => ?_) k hk
    · exact List.mem_singleton.1 hk ▸ .root
    · obtain ⟨j, hj, parent, attached⟩ := kin.listed p i k hi hk
      exact .child above hj parent attached
  · induction h with
    | root => exact Instance.mem_subtree_of_mem List.mem_cons_self (by rw [hi]; rfl)
    | child _ hj parent attached ih =>
      obtain ⟨i, hi, listed⟩ := linked _ _ _ hj parent attached
      exact Instance.mem_subtree_of_child ih hi listed (by rw [hj]; rfl)

/-- The search that begins with a live instance. -/
theorem searches_root (kin : s.Kinship) (byAge : s.ByAge) (hi : s.instances.get? root = some i) :
    Instance.Searches root s.instances [root] := by
  refine ⟨List.pairwise_singleton .., fun k hk => ?_, fun p j hj le => ⟨?_, fun k hk => ?_⟩⟩
  · obtain rfl := List.mem_singleton.1 hk
    refine ⟨Nat.le_refl _, i, hi, fun p parent le => ?_⟩
    exact absurd (kin.descends k i p hi parent).1 (Nat.not_lt.2 le)
  · refine (byAge p j hj).imp fun {a b} lt => ?_
    rintro rfl
    exact Nat.lt_irrefl _ lt
  · obtain ⟨j', hj', parent, -⟩ := kin.listed p j k hj hk
    have younger := (kin.descends k j' p hj' parent).1
    refine ⟨fun same => ?_, younger, j', hj', parent⟩
    obtain rfl := List.mem_singleton.1 same
    exact Nat.not_lt.2 le younger

end Session

end Dialogue
