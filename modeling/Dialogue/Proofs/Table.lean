import Dialogue.Table

/-!
# Look-ups in changed tables

What a change does to a table is said by what it does to every look-up. Changes that are defined
on the list of entries are brought to this form through the entries themselves, since no key occurs
twice among them.

## Main results

* `Table.mem_entries` — the entries of a table are its look-ups
* `Table.get?_map`, `Table.get?_modify`, `Table.get?_filter` — look-ups after a change
* `Table.modify_eq_insert` — a change of a stored value stores a value
* `Table.perm_ofList`, `Table.ofList_entries` — the entries of the table of a list
* `Table.get?_keepLast`, `Table.keepLast_insert_keepLast` — which entries have the largest keys
-/

namespace Dialogue.Table

universe u v w

variable {κ : Type u} {α : Type v} {β : Type w} [Ord κ] [Std.LawfulEqOrd κ]

/-! ## Entries -/

private theorem mem_of_look {k : κ} {a : α} :
    ∀ {l : List (κ × α)}, look k l = some a → (k, a) ∈ l
  | [], h => by simp [look] at h
  | (k', b) :: rest, h => by
    unfold look at h
    split at h
    · next heq =>
      obtain rfl := Std.LawfulEqCmp.eq_of_compare heq
      obtain rfl := Option.some.inj h
      exact List.mem_cons_self
    · exact List.mem_cons_of_mem _ (mem_of_look h)

private theorem look_of_mem {k : κ} {a : α} :
    ∀ {l : List (κ × α)}, (l.Pairwise fun a b => compare a.1 b.1 = .lt) →
      (k, a) ∈ l → look k l = some a
  | (k', b) :: rest, hs, hm => by
    obtain ⟨hd, tl⟩ := List.pairwise_cons.1 hs
    rcases List.mem_cons.1 hm with heq | hm
    · cases heq
      simp [look]
    -- The entries are sorted, so a key that comes later is another one.
    · have hlt : compare k' k = .lt := hd (k, a) hm
      have hne : compare k k' ≠ .eq := fun heq => by
        obtain rfl := Std.LawfulEqCmp.eq_of_compare heq
        simp at hlt
      rw [look, if_neg hne]
      exact look_of_mem tl hm

/-- The entries of a table are its look-ups. -/
theorem mem_entries {t : Table κ α} {k : κ} {a : α} : (k, a) ∈ t.entries ↔ t.get? k = some a :=
  ⟨look_of_mem t.sorted, mem_of_look⟩

theorem mem_values {t : Table κ α} {a : α} : a ∈ t.values ↔ ∃ k, t.get? k = some a := by
  simp only [values, List.mem_map, Prod.exists, exists_eq_right, mem_entries]

theorem mem_keys {t : Table κ α} {k : κ} : k ∈ t.keys ↔ ∃ a, t.get? k = some a := by
  simp only [keys, List.mem_map, Prod.exists, exists_and_right, exists_eq_right, mem_entries]

omit [Std.LawfulEqOrd κ] in
theorem eq_empty {t : Table κ α} (h : t.isEmpty = true) : t = empty :=
  ext (List.isEmpty_iff.1 h)

/-- No key occurs twice. -/
theorem nodup_keys (t : Table κ α) : t.keys.Nodup := by
  refine List.pairwise_map.2 (t.sorted.imp fun {a b} before same => ?_)
  rw [same] at before
  simp at before

/-! ## Changes -/

theorem get?_map (f : κ → α → β) (t : Table κ α) (k : κ) :
    (t.map f).get? k = (t.get? k).map (f k) := by
  ext b
  rw [← mem_entries, Option.map_eq_some_iff, map, List.mem_map]
  constructor
  · rintro ⟨⟨k', a⟩, he, heq⟩
    cases heq
    exact ⟨a, mem_entries.1 he, rfl⟩
  · rintro ⟨a, ha, rfl⟩
    exact ⟨(k, a), mem_entries.2 ha, rfl⟩

theorem get?_modify [DecidableEq κ] (t : Table κ α) (k j : κ) (f : α → α) :
    (t.modify k f).get? j = if j = k then (t.get? j).map f else t.get? j := by
  rw [modify, get?_map]
  -- A change is made under every key that compares as equal, which is the key alone.
  by_cases h : j = k
  · subst h
    simp
  · have hne : compare k j ≠ .eq := fun heq => h (Std.LawfulEqCmp.eq_of_compare heq).symm
    simp [h, hne]

theorem get?_filter {p : κ → α → Bool} {t : Table κ α} {k : κ} {a : α} :
    (t.filter p).get? k = some a ↔ t.get? k = some a ∧ p k a = true := by
  rw [← mem_entries, filter, List.mem_filter, mem_entries]

theorem get?_of_keepLast {t : Table κ α} {n : Nat} {k : κ} {a : α}
    (h : (t.keepLast n).get? k = some a) : t.get? k = some a :=
  mem_entries.1 (List.mem_of_mem_drop (mem_entries.2 h))

omit [Std.LawfulEqOrd κ] in
theorem size_keepLast_le (t : Table κ α) (n : Nat) : (t.keepLast n).size ≤ n := by
  simp only [size, keepLast, List.length_drop]
  omega

section Stored

variable [Std.TransOrd κ] [DecidableEq κ]

@[simp] theorem get?_insert_self (t : Table κ α) (k : κ) (a : α) :
    (t.insert k a).get? k = some a := by
  rw [get?_insert, if_pos rfl]

theorem get?_insert_of_ne {t : Table κ α} {k j : κ} {a : α} (h : j ≠ k) :
    (t.insert k a).get? j = t.get? j := by
  rw [get?_insert, if_neg h]

/-- A change of a stored value stores a value. -/
theorem modify_eq_insert {t : Table κ α} {k : κ} {a : α} (h : t.get? k = some a) (f : α → α) :
    t.modify k f = t.insert k (f a) := by
  refine ext_get? fun j => ?_
  rw [get?_modify, get?_insert]
  split
  · next hj => simp [hj, h]
  · rfl

/-- A change of a value that is not stored changes nothing. -/
theorem modify_eq_self {t : Table κ α} {k : κ} (h : t.get? k = none) (f : α → α) :
    t.modify k f = t := by
  refine ext_get? fun j => ?_
  rw [get?_modify]
  split
  · next hj => simp [hj, h]
  · rfl

/-- Storing a value that is stored already changes nothing. -/
theorem insert_eq_self {t : Table κ α} {k : κ} {a : α} (h : t.get? k = some a) :
    t.insert k a = t := by
  refine ext_get? fun j => ?_
  rw [get?_insert]
  split
  · next hj => rw [hj, h]
  · rfl

/-- A key that has a value keeps one when another is stored. -/
theorem contains_insert {t : Table κ α} {k : κ} (h : t.contains k) (j : κ) (a : α) :
    (t.insert j a).contains k := by
  rw [contains, get?_insert]
  split
  · rfl
  · exact h

/-- Storing a list of entries gives a value to each of their keys, and takes none away. -/
theorem contains_foldl_insert {k : κ} (l : List (κ × α)) {t : Table κ α}
    (h : t.contains k ∨ k ∈ l.map Prod.fst) :
    (l.foldl (fun t e => t.insert e.1 e.2) t).contains k := by
  induction l generalizing t with
  | nil => simpa using h
  | cons e rest ih =>
    apply ih
    rcases h with h | h
    · exact .inl (contains_insert h _ _)
    · rcases List.mem_cons.1 h with rfl | h
      · exact .inl (by simp [contains])
      · exact .inr h

theorem contains_ofList {l : List (κ × α)} {k : κ} (h : k ∈ l.map Prod.fst) :
    (ofList l).contains k :=
  contains_foldl_insert l (.inr h)

/-- The values of a list of entries are among them. -/
theorem mem_of_foldl_insert {k : κ} {a : α} (l : List (κ × α)) {t : Table κ α}
    (h : (l.foldl (fun t e => t.insert e.1 e.2) t).get? k = some a) :
    t.get? k = some a ∨ (k, a) ∈ l := by
  induction l generalizing t with
  | nil => exact .inl h
  | cons e rest ih =>
    rcases ih h with stored | later
    · rw [get?_insert] at stored
      split at stored
      · next hk =>
        obtain rfl := Option.some.inj stored
        exact .inr (hk ▸ List.mem_cons_self)
      · exact .inl stored
    · exact .inr (List.mem_cons_of_mem _ later)

theorem mem_of_ofList {l : List (κ × α)} {k : κ} {a : α} (h : (ofList l).get? k = some a) :
    (k, a) ∈ l :=
  (mem_of_foldl_insert l h).resolve_left nofun

theorem get?_foldl_insert {k : κ} (l : List (κ × α)) {t : Table κ α} (h : k ∉ l.map Prod.fst) :
    (l.foldl (fun t e => t.insert e.1 e.2) t).get? k = t.get? k := by
  induction l generalizing t with
  | nil => rfl
  | cons e rest ih =>
    rw [List.map_cons, List.mem_cons, not_or] at h
    rw [List.foldl_cons, ih h.2, get?_insert_of_ne h.1]

theorem get?_foldl_insert_of_mem {k : κ} {a : α} (l : List (κ × α)) {t : Table κ α}
    (once : (l.map Prod.fst).Nodup) (mem : (k, a) ∈ l) :
    (l.foldl (fun t e => t.insert e.1 e.2) t).get? k = some a := by
  induction l generalizing t with
  | nil => cases mem
  | cons e rest ih =>
    obtain ⟨apart, once⟩ := List.nodup_cons.1 once
    rw [List.foldl_cons]
    rcases List.mem_cons.1 mem with rfl | mem
    · rw [get?_foldl_insert rest apart, get?_insert_self]
    · exact ih once mem

/-- If no key occurs twice, the table of a list of entries has these entries. -/
theorem mem_entries_ofList {l : List (κ × α)} (once : (l.map Prod.fst).Nodup) {e : κ × α} :
    e ∈ (ofList l).entries ↔ e ∈ l :=
  ⟨fun mem => mem_of_ofList (mem_entries.1 mem),
    fun mem => mem_entries.2 (get?_foldl_insert_of_mem l once mem)⟩

/-- If no key occurs twice, the table of a list of entries finds what is listed. -/
theorem get?_ofList {l : List (κ × α)} (once : (l.map Prod.fst).Nodup) {k : κ} {a : α} :
    (ofList l).get? k = some a ↔ (k, a) ∈ l := by
  rw [← mem_entries, mem_entries_ofList once]

theorem perm_ofList {l : List (κ × α)} (once : (l.map Prod.fst).Nodup) :
    (ofList l).entries.Perm l := by
  have apart {m : List (κ × α)} (once : (m.map Prod.fst).Nodup) : m.Nodup :=
    List.Pairwise.of_map Prod.fst (fun _ _ ne same => ne (congrArg Prod.fst same)) once
  exact (List.perm_ext_iff_of_nodup (apart (nodup_keys _)) (apart once)).2
    fun _ => mem_entries_ofList once

/-- A table is the table of its entries. -/
@[simp] theorem ofList_entries (t : Table κ α) : ofList t.entries = t := by
  refine ext_get? fun k => Option.ext fun a => ?_
  rw [← mem_entries, mem_entries_ofList t.nodup_keys, mem_entries]

end Stored

/-! ## The largest keys -/

section Largest

omit [Ord κ] [Std.LawfulEqOrd κ] in
private theorem drop_cons_of_le {l : List (κ × α)} {n : Nat} (h : n ≤ l.length) (e : κ × α) :
    (e :: l).drop ((e :: l).length - n) = l.drop (l.length - n) := by
  rw [List.length_cons, Nat.succ_sub h, List.drop_succ_cons]

omit [Std.LawfulEqOrd κ] in
private theorem put_of_lt {k : κ} {a : α} :
    ∀ {l : List (κ × α)}, (∀ e ∈ l, compare k e.1 = .lt) → put k a l = (k, a) :: l
  | [], _ => rfl
  | (k', b) :: rest, h => by
    have first : compare k k' = .lt := h (k', b) List.mem_cons_self
    rw [put, first]

omit [Std.LawfulEqOrd κ] in
private theorem length_le_put (k : κ) (a : α) :
    ∀ l : List (κ × α), l.length ≤ (put k a l).length
  | [] => Nat.zero_le _
  | (k', b) :: rest => by
    have := length_le_put k a rest
    unfold put
    split <;> simp only [List.length_cons] <;> omega

variable [Std.TransOrd κ]

/-- The first entry is not among the last ones, whether another one is stored or not. -/
private theorem drop_put_cons {n : Nat} (k : κ) (a : α) {e : κ × α} {l : List (κ × α)}
    (sorted : (e :: l).Pairwise fun a b => compare a.1 b.1 = .lt) (h : n ≤ l.length) :
    (put k a (e :: l)).drop ((put k a (e :: l)).length - n) =
      (put k a l).drop ((put k a l).length - n) := by
  obtain ⟨k', b⟩ := e
  have head := (List.pairwise_cons.1 sorted).1
  cases order : compare k k' with
  | lt =>
    have whole : put k a ((k', b) :: l) = (k, a) :: (k', b) :: l := by rw [put, order]
    have part : put k a l = (k, a) :: l :=
      put_of_lt fun e he => Std.TransCmp.lt_trans order (head e he)
    rw [whole, part, drop_cons_of_le (Nat.le_succ_of_le h), drop_cons_of_le h, drop_cons_of_le h]
  | eq =>
    obtain rfl := Std.LawfulEqCmp.eq_of_compare order
    rw [put_of_lt head, put, order]
  | gt =>
    have whole : put k a ((k', b) :: l) = (k', b) :: put k a l := by rw [put, order]
    rw [whole, drop_cons_of_le (Nat.le_trans h (length_le_put k a l))]

private theorem drop_put (n : Nat) (k : κ) (a : α) (l : List (κ × α))
    (sorted : l.Pairwise fun a b => compare a.1 b.1 = .lt) :
    (put k a (l.drop (l.length - n))).drop ((put k a (l.drop (l.length - n))).length - n) =
      (put k a l).drop ((put k a l).length - n) := by
  induction l with
  | nil => rw [List.drop_nil]
  | cons e rest ih =>
    by_cases short : n ≤ rest.length
    · rw [drop_cons_of_le short, ih (List.pairwise_cons.1 sorted).2, drop_put_cons k a sorted short]
    · have all : (e :: rest).length - n = 0 := by
        simp only [List.length_cons]
        omega
      rw [all, List.drop_zero]

/-- An entry that is left out is not missed when another one is stored. -/
theorem keepLast_insert_keepLast (t : Table κ α) (n : Nat) (k : κ) (a : α) :
    ((t.keepLast n).insert k a).keepLast n = (t.insert k a).keepLast n :=
  ext (drop_put n k a t.entries t.sorted)

private theorem mem_drop_iff (n : Nat) {x : κ × α} {l : List (κ × α)}
    (sorted : l.Pairwise fun a b => compare a.1 b.1 = .lt) :
    x ∈ l.drop (l.length - n) ↔
      x ∈ l ∧ (l.map Prod.fst).countP (fun k => compare x.1 k == .lt) < n := by
  induction l with
  | nil => simp
  | cons e rest ih =>
    obtain ⟨head, tail⟩ := List.pairwise_cons.1 sorted
    -- The first key is the smallest, so it is never counted.
    have uncounted : ∀ y ∈ e :: rest, (compare y.1 e.1 == .lt) = false := by
      refine List.forall_mem_cons.2 ⟨by simp, fun y hy => ?_⟩
      rw [Std.OrientedCmp.gt_of_lt (head y hy)]
      rfl
    -- The first entry is dropped unless all are kept.
    by_cases short : n ≤ rest.length
    · rw [drop_cons_of_le short, ih tail]
      constructor
      · rintro ⟨mem, few⟩
        refine ⟨List.mem_cons_of_mem e mem, ?_⟩
        rwa [List.map_cons,
          List.countP_cons_of_neg (by simp [uncounted x (List.mem_cons_of_mem e mem)])]
      · rintro ⟨mem, few⟩
        rw [List.map_cons, List.countP_cons_of_neg (by simp [uncounted x mem])] at few
        rcases List.mem_cons.1 mem with rfl | mem
        · -- All the others are larger than the first one.
          have all : (rest.map Prod.fst).countP (fun k => compare x.1 k == .lt) =
              (rest.map Prod.fst).length :=
            List.countP_eq_length.2 (by simpa using fun k b h => head (k, b) h)
          rw [all, List.length_map] at few
          omega
        · exact ⟨mem, few⟩
    · have all : (e :: rest).length - n = 0 := by
        simp only [List.length_cons]
        omega
      rw [all, List.drop_zero]
      refine ⟨fun mem => ⟨mem, ?_⟩, And.left⟩
      -- All entries are kept, and there are too few to count to the number that is wanted.
      have few : (rest.map Prod.fst).countP (fun k => compare x.1 k == .lt) ≤
          (rest.map Prod.fst).length := List.countP_le_length
      rw [List.length_map] at few
      rw [List.map_cons, List.countP_cons_of_neg (by simp [uncounted x mem])]
      omega

/-- Those entries are kept to which few enough keys are larger. -/
theorem get?_keepLast {t : Table κ α} {n : Nat} {k : κ} {a : α} :
    (t.keepLast n).get? k = some a ↔
      t.get? k = some a ∧ t.keys.countP (fun j => compare k j == .lt) < n := by
  rw [← mem_entries, ← mem_entries]
  exact mem_drop_iff n t.sorted

end Largest

end Dialogue.Table
