import Dialogue.Proofs.Table
import Dialogue.Session.Lifecycle

/-!
# Who goes down with whom

The instances that go down with a given one are found by following the lists of children. Each
instance is visited once, so the search comes to an end even if the lists were not to form a tree.
What is found is closed: with an instance it has all its live children.

## Main results

* `Instance.mem_subtree_of_mem` — what is looked for is found
* `Instance.mem_subtree_of_child` — the children of what is found are found
* `Instance.subtree_induction` — nothing else is found
-/

namespace Dialogue.Instance

variable {live : Table InstanceId Instance} {ids : List InstanceId} {id k p : InstanceId}
  {i : Instance}

/-! ## The first live instance -/

theorem firstLive?_eq_none : ∀ {ids : List InstanceId}, firstLive? live ids = none →
    ∀ k ∈ ids, live.get? k = none
  | [], _, k, hk => by cases hk
  | id :: rest, h, k, hk => by
    unfold firstLive? at h
    split at h
    · cases h
    · next hid =>
      rcases List.mem_cons.1 hk with rfl | hk
      · exact hid
      · exact firstLive?_eq_none h k hk

/-- Every live instance of a list is the first one or stands behind it. -/
theorem mem_of_firstLive? {rest : List InstanceId} : ∀ {ids : List InstanceId},
    firstLive? live ids = some (id, i, rest) →
      ∀ k ∈ ids, (live.get? k).isSome → k = id ∨ k ∈ rest
  | id' :: ids, h, k, hk, hl => by
    unfold firstLive? at h
    split at h
    · cases h
      exact List.mem_cons.1 hk
    · next hid =>
      rcases List.mem_cons.1 hk with rfl | hk
      · simp [hid] at hl
      · exact mem_of_firstLive? h k hk hl

/-- The first live instance of a list, and what stands behind it, belong to the list. -/
theorem subset_of_firstLive? {rest : List InstanceId} : ∀ {ids : List InstanceId},
    firstLive? live ids = some (id, i, rest) → id ∈ ids ∧ ∀ k ∈ rest, k ∈ ids
  | id' :: ids, h => by
    unfold firstLive? at h
    split at h
    · cases h
      exact ⟨List.mem_cons_self, fun _ hk => List.mem_cons_of_mem _ hk⟩
    · obtain ⟨first, behind⟩ := subset_of_firstLive? h
      exact ⟨List.mem_cons_of_mem _ first, fun k hk => List.mem_cons_of_mem _ (behind k hk)⟩

/-! ## The whole search -/

/-- The live instances that the search starts from are found. -/
theorem mem_subtree_of_mem (hk : k ∈ ids) (hl : (live.get? k).isSome) : k ∈ subtree live ids := by
  fun_induction subtree live ids with
  | case1 live ids h =>
    simp [firstLive?_eq_none h k hk] at hl
  | case2 live ids id i rest h ih =>
    -- The instance is the first one, or it is still looked for when that one is out.
    by_cases hid : k = id
    · exact List.mem_cons.2 (.inl hid)
    · refine List.mem_cons_of_mem _ (ih ?_ ?_)
      · exact List.mem_append_right _ ((mem_of_firstLive? h k hk hl).resolve_left hid)
      · rwa [Table.get?_erase, if_neg hid]

/-- The live children of an instance that is found are found. -/
theorem mem_subtree_of_child (hp : p ∈ subtree live ids) (hi : live.get? p = some i)
    (hk : k ∈ i.children) (hl : (live.get? k).isSome) : k ∈ subtree live ids := by
  fun_induction subtree live ids with
  | case1 => cases hp
  | case2 live ids id j rest h ih =>
    by_cases hid : k = id
    · exact List.mem_cons.2 (.inl hid)
    · have hl' : ((live.erase id).get? k).isSome := by rwa [Table.get?_erase, if_neg hid]
      refine List.mem_cons_of_mem _ ?_
      -- The children of the first one are what is looked for next; those of another one are found
      -- by the rest of the search, in which that other one is still live.
      by_cases hpid : p = id
      · subst hpid
        obtain rfl := Option.some.inj (hi.symm.trans (get?_of_firstLive? h))
        exact mem_subtree_of_mem (List.mem_append_left _ hk) hl'
      · have hp' := (List.mem_cons.1 hp).resolve_left hpid
        exact ih hp' (by rwa [Table.get?_erase, if_neg hpid]) hl'

/-- What goes down with a live instance is found below its children. -/
theorem subtree_of_live (hi : live.get? id = some i) :
    subtree live [id] = id :: subtree (live.erase id) i.children := by
  have first : firstLive? live [id] = some (id, i, []) := by simp [firstLive?, hi]
  rw [subtree]
  split
  · next none_eq => simp [first] at none_eq
  · next some_eq =>
    obtain ⟨rfl, rfl, rfl⟩ : id = _ ∧ i = _ ∧ [] = _ := by simpa [first] using some_eq
    rw [List.append_nil]

/-- What is found is what the search starts from, and children of what is found. -/
theorem subtree_induction {P : InstanceId → Prop} (start : ∀ k ∈ ids, P k)
    (down : ∀ p i, live.get? p = some i → P p → ∀ k ∈ i.children, P k) :
    ∀ k ∈ subtree live ids, P k := by
  fun_induction subtree live ids with
  | case1 => exact fun _ hk => absurd hk List.not_mem_nil
  | case2 live ids id i rest h ih =>
    have hi := get?_of_firstLive? h
    obtain ⟨found, behind⟩ := subset_of_firstLive? h
    have first : P id := start id found
    refine List.forall_mem_cons.2 ⟨first, ih (fun k hk => ?_) fun p j hj => ?_⟩
    -- The search goes on with the children of the first one, and with the rest of the list.
    · rcases List.mem_append.1 hk with hk | hk
      · exact down id i hi first k hk
      · exact start k (behind k hk)
    · rw [Table.get?_erase] at hj
      split at hj
      · cases hj
      · exact down p j hj

end Dialogue.Instance
