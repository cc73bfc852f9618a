import Dialogue.Json.Record
import Dialogue.Proofs.Table
import Mathlib.Data.List.Forall2

/-!
# Fields that are written and read

A record is written as an object from which the fields that have their defaults are left out. What
is read from such an object is what was written, field by field: a field that is left out has the
default, a field that is there has a document from which its contents are read, and since no two
fields have one name, none hides another.

## Main definitions

* `Json.IsFinite` — a document with no numbers but finite ones
* `Json.IsNamed` — a member that is left out or has a certain key

## Main results

* `Json.asList?_map`, `Json.asTable?_map` — lists and tables are read back
* `Json.exists_record?` — so are the members of a record
* `Json.Fields.required?_eq`, `Json.Fields.optional?_eq`, `Json.Fields.nullable?_eq` — and so is
  each of its fields
-/

namespace Dialogue.Json

/-! ## Finite documents -/

mutual

/-- All numbers of a document are finite. -/
def IsFinite : Json → Prop
  | .int n => Decimal.isFinite (Float.ofInt n) = true
  | .float x => Decimal.isFinite x = true
  | .array js => ItemsFinite js
  | .object ms => MembersFinite ms
  | .null | .bool _ | .string _ => True

/-- All numbers of the items of an array are finite. -/
def ItemsFinite : List Json → Prop
  | [] => True
  | j :: js => IsFinite j ∧ ItemsFinite js

/-- All numbers of the members of an object are finite. -/
def MembersFinite : List (String × Json) → Prop
  | [] => True
  | (_, j) :: ms => IsFinite j ∧ MembersFinite ms

end

theorem itemsFinite_iff {js : List Json} : ItemsFinite js ↔ ∀ j ∈ js, j.IsFinite := by
  induction js with
  | nil => simp [ItemsFinite]
  | cons j js ih => rw [ItemsFinite, ih, List.forall_mem_cons]

theorem membersFinite_iff {ms : List (String × Json)} :
    MembersFinite ms ↔ ∀ m ∈ ms, m.2.IsFinite := by
  induction ms with
  | nil => simp [MembersFinite]
  | cons m ms ih => rw [MembersFinite, ih, List.forall_mem_cons]

/-! ## Many things that are read alike -/

variable {α β : Type}

theorem mapM_eq_some_iff {read : α → Option β} {l : List α} {m : List β} :
    l.mapM read = some m ↔ List.Forall₂ (fun a b => read a = some b) l m := by
  induction l generalizing m with
  | nil => simp [eq_comm]
  | cons a l ih =>
    simp only [List.mapM_cons, Option.bind_eq_bind, Option.bind_eq_some_iff, Option.pure_def,
      Option.some.injEq, List.forall₂_cons_left_iff, ih]
    constructor
    · rintro ⟨b, first, rest, others, rfl⟩
      exact ⟨b, rest, first, others, rfl⟩
    · rintro ⟨b, rest, first, others, rfl⟩
      exact ⟨b, first, rest, others, rfl⟩

theorem mapM_map_eq_some {read : α → Option β} {write : β → α} {l : List β}
    (back : ∀ b ∈ l, read (write b) = some b) : (l.map write).mapM read = some l := by
  rw [mapM_eq_some_iff, List.forall₂_map_left_iff, List.forall₂_same]
  exact back

theorem exists_of_mapM {read : α → Option β} {l : List α} {m : List β} {b : β}
    (h : l.mapM read = some m) (mem : b ∈ m) : ∃ a ∈ l, read a = some b := by
  rw [mapM_eq_some_iff] at h
  induction h with
  | nil => cases mem
  | cons first _ ih =>
    rcases List.mem_cons.1 mem with rfl | mem
    · exact ⟨_, List.mem_cons_self, first⟩
    · obtain ⟨a, other, eq⟩ := ih mem
      exact ⟨a, List.mem_cons_of_mem _ other, eq⟩

theorem asList?_map {item : Json → Option α} {write : α → Json} {l : List α}
    (back : ∀ a ∈ l, item (write a) = some a) : asList? item (.array (l.map write)) = some l :=
  mapM_map_eq_some back

theorem asTable?_map {item : Json → Option α} (write : α → Json) {t : Table String α}
    (back : ∀ e ∈ t.entries, item (write e.2) = some e.2) :
    asTable? item (.object (t.entries.map fun e => (e.1, write e.2))) = some t := by
  have entries : (t.entries.map fun e => (e.1, write e.2)).mapM
      (fun m => (item m.2).map fun a => (m.1, a)) = some t.entries :=
    mapM_map_eq_some fun e mem => by rw [back e mem, Option.map_some]
  rw [asTable?, entries, Option.map_some, Table.ofList_entries]

/-- What is read as an entry of a table is read from a part of its document. -/
theorem exists_of_asTable? {item : Json → Option α} {j : Json} {t : Table String α}
    {e : String × α} (h : asTable? item j = some t) (mem : e ∈ t.entries) :
    ∃ i : Json, (j.IsFinite → i.IsFinite) ∧ item i = some e.2 := by
  cases j with
  | object ms =>
    obtain ⟨l, read, rfl⟩ := Option.map_eq_some_iff.1 h
    obtain ⟨m, part, eq⟩ := exists_of_mapM read (Table.mem_of_ofList (Table.mem_entries.1 mem))
    obtain ⟨a, eq, same⟩ := Option.map_eq_some_iff.1 eq
    refine ⟨m.2, fun finite => ?_, by rw [eq, (Prod.mk.inj same).2]⟩
    rw [IsFinite, membersFinite_iff] at finite
    exact finite m part
  | _ => cases h

/-! ## Members -/

/-- A member has a certain key, if it is not left out. -/
def IsNamed (key : String) (m : Option (String × Json)) : Prop := ∀ e ∈ m, e.1 = key

variable {key name : String} {j : Json} {ms : List (Option (String × Json))} {omitted : Bool}

@[simp] theorem isNamed_present : IsNamed key (present name j) ↔ name = key := by
  simp [IsNamed, present]

theorem isNamed_omitIf : IsNamed key (omitIf omitted key j) := by
  cases omitted <;> simp [IsNamed, omitIf]

theorem isNamed_map {o : Option α} {write : α → Json} :
    IsNamed key (o.map fun a => (key, write a)) := by
  cases o <;> simp [IsNamed]

/-- The keys of members that are written in the order of some names are among these in order. -/
theorem keys_sublist {names : List String} (h : List.Forall₂ IsNamed names ms) :
    ((ms.filterMap id).map Prod.fst).Sublist names := by
  induction h with
  | nil => exact .slnil
  | @cons name m _ _ named _ ih =>
    cases m with
    | none => exact ih.cons name
    | some e =>
      obtain rfl := named e rfl
      exact ih.cons_cons e.1

/-- Every member is found under its own name. -/
theorem lookup_members {names : List String} (named : List.Forall₂ IsNamed names ms)
    (once : names.Nodup) (i : Nat) {m : Option (String × Json)} (hi : names[i]? = some name)
    (hm : ms[i]? = some m) : List.lookup name (ms.filterMap id) = m.map Prod.snd := by
  induction named generalizing i with
  | nil => cases hi
  | @cons name' m' names ms first named ih =>
    obtain ⟨alone, others⟩ := List.nodup_cons.1 once
    cases i with
    | zero =>
      obtain rfl := Option.some.inj hi
      obtain rfl := Option.some.inj hm
      cases m' with
      | none =>
        -- A member that is left out is not found among the others, for their names are different.
        refine List.lookup_eq_none_iff.2 fun e mem => bne_iff_ne.2 ?_
        rintro rfl
        exact alone ((keys_sublist named).subset (List.mem_map_of_mem mem))
      | some e =>
        obtain rfl := first e rfl
        exact List.lookup_cons_self
    | succ i =>
      -- The first member has another name, so it is passed over.
      have other : name ≠ name' := fun same => alone (same ▸ List.mem_of_getElem? hi)
      cases m' with
      | none => exact ih others i hi hm
      | some e =>
        obtain rfl := first e rfl
        have skipped : List.lookup name ((some e :: ms).filterMap id) =
            List.lookup name (ms.filterMap id) := by
          have there : (some e :: ms).filterMap id = e :: ms.filterMap id := rfl
          rw [there, List.lookup_cons, beq_false_of_ne other]
        rw [skipped, ih others i hi hm]

/-- The members of a record are read back, and each of them is found under its name. -/
theorem exists_record? {f : Format} {names : List String} (named : List.Forall₂ IsNamed names ms)
    (once : names.Nodup) : ∃ fs : Fields, record? f names (members ms) = some fs ∧
      ∀ (i : Nat) {name : String} {m : Option (String × Json)}, names[i]? = some name →
        ms[i]? = some m → fs.find? name = m.map Prod.snd := by
  have sub := keys_sublist named
  have known : (ms.filterMap id).filter (fun m => names.contains m.1) = ms.filterMap id :=
    List.filter_eq_self.2 fun m mem =>
      List.contains_iff_mem.2 (sub.subset (List.mem_map_of_mem mem))
  refine ⟨ms.filterMap id, ?_, fun i => lookup_members named once i⟩
  rw [members, record?, known]
  exact if_pos (sub.nodup once)

/-! ## Fields -/

namespace Fields

variable {fs : Fields} {read : Json → Option α} {a default : α}

theorem required?_eq (found : fs.find? name = (present name j).map Prod.snd)
    (back : read j = some a) : fs.required? name read = some a := by
  rw [required?, found, present, Option.map_some, Option.bind_some, back]

theorem text_eq {s : String} (found : fs.find? name = (present name (.string s)).map Prod.snd) :
    fs.required? name asString? = some s :=
  required?_eq found rfl

/-- A field may be left out only if it has its default. -/
theorem optional?_eq (found : fs.find? name = (omitIf omitted name j).map Prod.snd)
    (back : omitted = false → read j = some a) (left : omitted = true → a = default) :
    fs.optional? name read default = some a := by
  rw [optional?, found]
  cases omitted with
  | true => exact congrArg some (left rfl).symm
  | false => exact back rfl

theorem optional?_eq_of_present (found : fs.find? name = (present name j).map Prod.snd)
    (back : read j = some a) : fs.optional? name read default = some a := by
  rw [optional?, found]
  exact back

/-- A truth value that is written only if it is true. -/
theorem flag_eq {b : Bool} (found : fs.find? name = (omitIf (!b) name (.bool true)).map Prod.snd) :
    fs.optional? name asBool? false = some b := by
  cases b with
  | false => exact optional?_eq found nofun fun _ => rfl
  | true => exact optional?_eq found (fun _ => rfl) nofun

theorem nullable?_eq {o : Option α} {write : α → Json}
    (found : fs.find? name = (o.map fun a => (name, write a)).map Prod.snd)
    (back : ∀ a ∈ o, write a ≠ .null ∧ read (write a) = some a) :
    fs.nullable? name read = some o := by
  rw [nullable?, found]
  cases o with
  | none => rfl
  | some a =>
    obtain ⟨there, eq⟩ := back a rfl
    rw [Option.map_some, Option.map_some]
    split
    · next absent => cases absent
    · next null => exact absurd (Option.some.inj null) there
    · next j _ same => rw [← Option.some.inj same, eq, Option.map_some]

/-! ### Finite fields -/

theorem mem_of_lookup {l : List (String × α)} (h : List.lookup name l = some a) :
    (name, a) ∈ l := by
  obtain ⟨before, behind, rfl, -⟩ := List.lookup_eq_some_iff.1 h
  simp

theorem isFinite_of_find? (finite : MembersFinite fs) (h : fs.find? name = some j) : j.IsFinite :=
  membersFinite_iff.1 finite _ (mem_of_lookup h)

/-- A number that is read from a finite document is finite. -/
theorem isFinite_of_nullable? (finite : MembersFinite fs) {o : Option Float} {x : Float}
    (h : fs.nullable? name asFloat? = some o) (mem : x ∈ o) : Decimal.isFinite x = true := by
  unfold nullable? at h
  split at h
  · obtain rfl := Option.some.inj h
    cases mem
  · obtain rfl := Option.some.inj h
    cases mem
  · next j _ found =>
    obtain ⟨y, read, rfl⟩ := Option.map_eq_some_iff.1 h
    obtain rfl := Option.some.inj mem
    have finite := isFinite_of_find? finite found
    cases j with
    | int n | float z =>
      obtain rfl := Option.some.inj read
      exact finite
    | _ => cases read

/-- What is read as an entry of a table in a field is read from a finite document. -/
theorem exists_of_optional? (finite : MembersFinite fs) {t : Table String α} {e : String × α}
    (h : fs.optional? name (asTable? read) Table.empty = some t) (mem : e ∈ t.entries) :
    ∃ i : Json, i.IsFinite ∧ read i = some e.2 := by
  unfold optional? at h
  split at h
  · obtain rfl := Option.some.inj h
    cases mem
  · next j found =>
    obtain ⟨i, part, eq⟩ := exists_of_asTable? h mem
    exact ⟨i, part (isFinite_of_find? finite found), eq⟩

/-- What is read as an item of a list in a field is read from a finite document. -/
theorem exists_of_optional?_list (finite : MembersFinite fs) {l : List α}
    (h : fs.optional? name (asList? read) [] = some l) (mem : a ∈ l) :
    ∃ i : Json, i.IsFinite ∧ read i = some a := by
  unfold optional? at h
  split at h
  · obtain rfl := Option.some.inj h
    cases mem
  · next j found =>
    have finite := isFinite_of_find? finite found
    cases j with
    | array js =>
      obtain ⟨i, part, eq⟩ := exists_of_mapM h mem
      rw [IsFinite, itemsFinite_iff] at finite
      exact ⟨i, finite i part, eq⟩
    | _ => cases h

end Fields

/-- The fields of a finite record are finite. -/
theorem membersFinite_of_record? {f : Format} {names : List String} {j : Json} {fs : Fields}
    (finite : j.IsFinite) (h : record? f names j = some fs) : MembersFinite fs := by
  rw [membersFinite_iff]
  cases j with
  | object ms =>
    rw [record?, Option.ite_none_right_eq_some] at h
    obtain ⟨-, same⟩ := h
    obtain rfl := Option.some.inj same
    rw [IsFinite, membersFinite_iff] at finite
    exact fun m mem => finite m (List.mem_of_mem_filter mem)
  | array js =>
    rw [record?, Option.ite_none_right_eq_some] at h
    obtain ⟨-, same⟩ := h
    obtain rfl := Option.some.inj same
    rw [IsFinite, itemsFinite_iff] at finite
    exact fun m mem => finite m.2 (List.of_mem_zip mem).2
  | _ => cases h

end Dialogue.Json
