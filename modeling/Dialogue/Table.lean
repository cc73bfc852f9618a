/-!
# Ordered tables

A table is a finite map whose entries are listed in strictly increasing order of their keys. The
order is part of the type, so two tables with the same look-ups are the same table, and every
listing of a table is a listing in key order.

## Main definitions

* `Table` — entries with strictly increasing keys
* `Table.get?`, `Table.insert`, `Table.erase` — look-up and the two updates
* `Table.ofList` — the table of a list of entries, later entries winning

## Main results

* `get?_insert`, `get?_erase` — what an update does to every look-up
* `ext_get?` — a table is determined by its look-ups
-/

namespace Dialogue

universe u v w

/-- A finite map, listed in strictly increasing order of its keys. -/
structure Table (κ : Type u) (α : Type v) [Ord κ] where
  /-- The entries, in key order. -/
  entries : List (κ × α)
  /-- No key occurs twice, and a smaller key comes first. -/
  sorted : entries.Pairwise fun a b => compare a.1 b.1 = .lt

namespace Table

variable {κ : Type u} {α : Type v} {β : Type w} [Ord κ]

@[ext] theorem ext {s t : Table κ α} (h : s.entries = t.entries) : s = t := by
  cases s; cases t; cases h; rfl

/-- The table without entries. -/
def empty : Table κ α := ⟨[], .nil⟩

instance : EmptyCollection (Table κ α) := ⟨empty⟩
instance : Inhabited (Table κ α) := ⟨empty⟩
instance [BEq κ] [BEq α] : BEq (Table κ α) := ⟨fun s t => s.entries == t.entries⟩
instance [DecidableEq κ] [DecidableEq α] : DecidableEq (Table κ α) := fun s t =>
  decidable_of_iff (s.entries = t.entries) ⟨ext, fun h => h ▸ rfl⟩

/-- The value stored under a key in a list of entries. -/
def look (k : κ) : List (κ × α) → Option α
  | [] => none
  | (k', a) :: rest => if compare k k' = .eq then some a else look k rest

/-- The value stored under a key. -/
def get? (t : Table κ α) (k : κ) : Option α := look k t.entries

/-- Whether a key has a value. -/
def contains (t : Table κ α) (k : κ) : Bool := (t.get? k).isSome

/-- The value stored under a key, or a default. -/
def getD (t : Table κ α) (k : κ) (a : α) : α := (t.get? k).getD a

/-- The keys, in order. -/
def keys (t : Table κ α) : List κ := t.entries.map Prod.fst

/-- The values, in key order. -/
def values (t : Table κ α) : List α := t.entries.map Prod.snd

/-- The number of entries. -/
def size (t : Table κ α) : Nat := t.entries.length

/-- Whether there is no entry. -/
def isEmpty (t : Table κ α) : Bool := t.entries.isEmpty

/-- Puts a value under a key in a sorted list of entries. -/
def put (k : κ) (a : α) : List (κ × α) → List (κ × α)
  | [] => [(k, a)]
  | (k', b) :: rest =>
    match compare k k' with
    | .lt => (k, a) :: (k', b) :: rest
    | .eq => (k, a) :: rest
    | .gt => (k', b) :: put k a rest

theorem mem_put {k : κ} {a : α} {e : κ × α} :
    ∀ {l : List (κ × α)}, e ∈ put k a l → e = (k, a) ∨ e ∈ l
  | [], h => by simpa [put] using h
  | (k', b) :: rest, h => by
    unfold put at h
    split at h
    · simpa using h
    · rcases List.mem_cons.1 h with h | h
      · exact .inl h
      · exact .inr (List.mem_cons_of_mem _ h)
    · rcases List.mem_cons.1 h with h | h
      · exact .inr (by simp [h])
      · rcases mem_put h with h | h
        · exact .inl h
        · exact .inr (List.mem_cons_of_mem _ h)

theorem sorted_put [Std.TransOrd κ] [Std.LawfulEqOrd κ] (k : κ) (a : α) :
    ∀ {l : List (κ × α)}, (l.Pairwise fun a b => compare a.1 b.1 = .lt) →
      (put k a l).Pairwise fun a b => compare a.1 b.1 = .lt
  | [], _ => by simp [put]
  | (k', b) :: rest, h => by
    obtain ⟨hd, tl⟩ := List.pairwise_cons.1 h
    unfold put
    -- The new entry stands in front of the first one, in its place, or behind it.
    split
    · next hlt =>
      refine List.pairwise_cons.2 ⟨fun e he => ?_, h⟩
      rcases List.mem_cons.1 he with rfl | he
      · exact hlt
      · exact Std.TransCmp.lt_trans hlt (hd e he)
    · next heq =>
      have hk : k = k' := Std.LawfulEqCmp.eq_of_compare heq
      subst hk
      exact List.pairwise_cons.2 ⟨hd, tl⟩
    · next hgt =>
      refine List.pairwise_cons.2 ⟨fun e he => ?_, sorted_put k a tl⟩
      rcases mem_put he with rfl | he
      · exact Std.OrientedCmp.gt_iff_lt.1 hgt
      · exact hd e he

/-- Stores a value under a key, replacing what was there. -/
def insert [Std.TransOrd κ] [Std.LawfulEqOrd κ] (t : Table κ α) (k : κ) (a : α) : Table κ α :=
  ⟨put k a t.entries, sorted_put k a t.sorted⟩

/-- Removes the entry of a key, if there is one. -/
def erase (t : Table κ α) (k : κ) : Table κ α :=
  ⟨t.entries.filter fun e => compare k e.1 != .eq, t.sorted.filter _⟩

/-- Keeps the entries with the largest keys, as many as are wanted. -/
def keepLast (t : Table κ α) (n : Nat) : Table κ α :=
  ⟨t.entries.drop (t.entries.length - n), t.sorted.sublist (List.drop_sublist _ _)⟩

/-- Keeps the entries that pass a test. -/
def filter (p : κ → α → Bool) (t : Table κ α) : Table κ α :=
  ⟨t.entries.filter fun e => p e.1 e.2, t.sorted.filter _⟩

/-- Applies a function to every value. -/
def map (f : κ → α → β) (t : Table κ α) : Table κ β :=
  ⟨t.entries.map fun e => (e.1, f e.1 e.2), List.pairwise_map.2 t.sorted⟩

/-- Applies a function that may fail to the values of a list of entries, from first to last. -/
def traverseList {ε : Type w} (f : κ → α → Except ε β) :
    (l : List (κ × α)) → Except ε { m : List (κ × β) // m.map Prod.fst = l.map Prod.fst }
  | [] => .ok ⟨[], rfl⟩
  | (k, a) :: rest =>
    match f k a with
    | .error e => .error e
    | .ok b =>
      match traverseList f rest with
      | .error e => .error e
      | .ok ⟨m, h⟩ => .ok ⟨(k, b) :: m, by simp [h]⟩

/-- Applies a function that may fail to every value, in key order; the first failure counts. -/
def traverse {ε : Type w} (f : κ → α → Except ε β) (t : Table κ α) : Except ε (Table κ β) :=
  match traverseList f t.entries with
  | .error e => .error e
  | .ok ⟨m, h⟩ => .ok ⟨m, by
      have hs : (t.entries.map Prod.fst).Pairwise fun a b => compare a b = .lt :=
        List.pairwise_map.2 t.sorted
      rw [← h] at hs
      exact List.pairwise_map.1 hs⟩

/-- Replaces the value under a key, if there is one. -/
def modify (t : Table κ α) (k : κ) (f : α → α) : Table κ α :=
  t.map fun k' a => if compare k k' = .eq then f a else a

/-- The table of a list of entries; of two entries with one key the later wins. -/
def ofList [Std.TransOrd κ] [Std.LawfulEqOrd κ] (l : List (κ × α)) : Table κ α :=
  l.foldl (fun t e => t.insert e.1 e.2) empty

/-! ## Look-ups after updates -/

@[simp] theorem get?_empty (k : κ) : (empty : Table κ α).get? k = none := rfl

section Lawful

variable [Std.TransOrd κ] [Std.LawfulEqOrd κ]

omit [Std.TransOrd κ] in
private theorem look_put [DecidableEq κ] (k j : κ) (a : α) :
    ∀ l : List (κ × α), look j (put k a l) = if j = k then some a else look j l
  | [] => by simp [put, look]
  | (k', b) :: rest => by
    unfold put
    split
    · simp [look]
    · next heq =>
      have hk : k = k' := Std.LawfulEqCmp.eq_of_compare heq
      subst hk
      by_cases h : j = k <;> simp [look, h]
    · next hgt =>
      have hne : k ≠ k' := by
        rintro rfl
        simp at hgt
      by_cases h : j = k
      · subst h
        simp [look, look_put, hne]
      · simp [look, look_put, h]

theorem get?_insert [DecidableEq κ] (t : Table κ α) (k j : κ) (a : α) :
    (t.insert k a).get? j = if j = k then some a else t.get? j :=
  look_put k j a t.entries

omit [Std.TransOrd κ] in
private theorem look_filter_ne [DecidableEq κ] (k j : κ) :
    ∀ l : List (κ × α), look j (l.filter fun e => compare k e.1 != .eq)
      = if j = k then none else look j l
  | [] => by simp [look]
  | (k', b) :: rest => by
    have ih := look_filter_ne k j rest
    by_cases hk : k = k'
    · subst hk
      by_cases h : j = k
      · subst h
        simpa using ih
      · simpa [look, h] using ih
    · by_cases h : j = k
      · subst h
        simpa [look, hk] using ih
      · simp [ih, look, hk, h]

omit [Std.TransOrd κ] in
theorem get?_erase [DecidableEq κ] (t : Table κ α) (k j : κ) :
    (t.erase k).get? j = if j = k then none else t.get? j :=
  look_filter_ne k j t.entries

omit [Std.TransOrd κ] [Std.LawfulEqOrd κ] in
private theorem length_filter_lt {k : κ} {a : α} :
    ∀ {l : List (κ × α)}, look k l = some a →
      (l.filter fun e => compare k e.1 != .eq).length < l.length
  | [], h => by simp [look] at h
  | (k', b) :: rest, h => by
    have hle := List.length_filter_le (fun e : κ × α => compare k e.1 != .eq) rest
    by_cases hk : compare k k' = .eq
    · rw [List.filter_cons_of_neg (by simp [hk])]
      simp only [List.length_cons]
      omega
    · rw [look, if_neg hk] at h
      rw [List.filter_cons_of_pos (by simp [hk])]
      simp only [List.length_cons]
      have := length_filter_lt h
      omega

omit [Std.TransOrd κ] [Std.LawfulEqOrd κ] in
/-- Erasing an entry that is there makes a table smaller. -/
theorem size_erase_lt {t : Table κ α} {k : κ} {a : α} (h : t.get? k = some a) :
    (t.erase k).size < t.size :=
  length_filter_lt h

omit [Std.TransOrd κ] [Std.LawfulEqOrd κ] in
private theorem look_eq_none {k : κ} :
    ∀ {l : List (κ × α)}, (∀ e ∈ l, compare k e.1 = .lt) → look k l = none
  | [], _ => rfl
  | (k', b) :: rest, h => by
    have h₁ := h (k', b) (by simp)
    simp [look, h₁, look_eq_none fun e he => h e (List.mem_cons_of_mem _ he)]

private theorem entries_eq_of_look :
    ∀ {l m : List (κ × α)}, (l.Pairwise fun a b => compare a.1 b.1 = .lt) →
      (m.Pairwise fun a b => compare a.1 b.1 = .lt) → (∀ k, look k l = look k m) → l = m
  | [], [], _, _, _ => rfl
  | [], (k, b) :: m, _, _, h => by simpa [look] using h k
  | (k, a) :: l, [], _, _, h => by simpa [look] using h k
  | (k, a) :: l, (k', b) :: m, hl, hm, h => by
    obtain ⟨hdl, tll⟩ := List.pairwise_cons.1 hl
    obtain ⟨hdm, tlm⟩ := List.pairwise_cons.1 hm
    -- The smaller of the two first keys would be missing in the other list, so they are equal.
    match hc : compare k k' with
    | .lt =>
      have hm' : look k ((k', b) :: m) = none := look_eq_none fun e he => by
        rcases List.mem_cons.1 he with rfl | he
        · exact hc
        · exact Std.TransCmp.lt_trans hc (hdm e he)
      have := h k
      rw [hm'] at this
      simp [look] at this
    | .gt =>
      have hc' := Std.OrientedCmp.gt_iff_lt.1 hc
      have hl' : look k' ((k, a) :: l) = none := look_eq_none fun e he => by
        rcases List.mem_cons.1 he with rfl | he
        · exact hc'
        · exact Std.TransCmp.lt_trans hc' (hdl e he)
      have := h k'
      rw [hl'] at this
      simp [look] at this
    | .eq =>
      have hk : k = k' := Std.LawfulEqCmp.eq_of_compare hc
      subst hk
      have hab : a = b := by simpa [look] using h k
      subst hab
      have tails : ∀ j, look j l = look j m := fun j => by
        -- The first key occurs in neither of the tails.
        by_cases hj : compare j k = .eq
        · have hjk : j = k := Std.LawfulEqCmp.eq_of_compare hj
          subst hjk
          rw [look_eq_none hdl, look_eq_none hdm]
        · have := h j
          simpa [look, hj] using this
      rw [entries_eq_of_look tll tlm tails]

/-- Tables with the same look-ups are the same table. -/
theorem ext_get? {s t : Table κ α} (h : ∀ k, s.get? k = t.get? k) : s = t :=
  ext (entries_eq_of_look s.sorted t.sorted h)

end Lawful

end Table

end Dialogue
