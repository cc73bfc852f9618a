import Dialogue.Condition
import Dialogue.Pattern
import Dialogue.Proofs.Document.Field
import Dialogue.Proofs.Expr.Source

/-!
# Values that are written and read

A value that was read from a document comes back from the document that it is written as, provided
that numbers do. So do an expression and a constraint, which are written as the values that they
were read from, a condition, which is written as its text, and a pattern.

## Main definitions

* `Json.CarriesFinite` — the documents of finite numbers tell the numbers
* `Value.Survives`, `Expr.Survives`, `Constraint.Survives`, `Pattern.Survives` — something is read
  back from its document

## Main results

* `Value.survives_ofJson`, `Expr.survives_ofJson`, `Constraint.survives_ofJson`,
  `Condition.ofJson?_source`, `Pattern.survives_of_ofJson?` — what has been read survives
-/

namespace Dialogue

/-- The documents of finite numbers tell the numbers. -/
def Json.CarriesFinite (number : Float → Json) : Prop :=
  ∀ x, Decimal.isFinite x = true → (number x).asFloat? = some x

variable {number : Float → Json}

/-! ## Values -/

namespace Value

/-- A value is read back from its document. -/
def Survives (number : Float → Json) (v : Value) : Prop := ofJson (v.toJsonWith number) = v

theorem ofJson_of_asFloat? {j : Json} {x : Float} (h : j.asFloat? = some x) :
    ofJson j = .number x := by
  cases j with
  | int n | float y =>
    obtain rfl := Option.some.inj h
    rfl
  | _ => cases h

theorem entriesToJson_eq_map (es : List (String × Value)) :
    entriesToJson number es = es.map fun e => (e.1, e.2.toJsonWith number) := by
  induction es with
  | nil => rfl
  | cons e es ih => rw [entriesToJson, ih, List.map_cons]

theorem entriesOfJson_entriesToJson {es : List (String × Value)}
    (back : ∀ e ∈ es, e.2.Survives number) : entriesOfJson (entriesToJson number es) = es := by
  induction es with
  | nil => rfl
  | cons e es ih =>
    obtain ⟨first, others⟩ := List.forall_mem_cons.1 back
    rw [entriesToJson, entriesOfJson, ih others, first]

mutual

/-- A value that was read from a finite document survives. -/
theorem survives_ofJson (carries : Json.CarriesFinite number) :
    ∀ {j : Json}, j.IsFinite → (ofJson j).Survives number
  | .null, _ | .bool _, _ | .string _, _ => rfl
  | .int n, h => ofJson_of_asFloat? (carries (Float.ofInt n) h)
  | .float x, h => ofJson_of_asFloat? (carries x h)
  | .array js, h => by
    rw [ofJson, Survives, toJsonWith, ofJson, itemsOfJson_itemsToJson carries h]
  | .object ms, h => by
    -- The entries of the table are among those that were read.
    have back : ∀ e ∈ (Table.ofList (entriesOfJson ms)).entries, e.2.Survives number :=
      fun e mem =>
        survives_entriesOfJson carries h e (Table.mem_of_ofList (Table.mem_entries.1 mem))
    rw [ofJson, Survives, toJsonWith, ofJson, entriesOfJson_entriesToJson back,
      Table.ofList_entries]

theorem itemsOfJson_itemsToJson (carries : Json.CarriesFinite number) :
    ∀ {js : List Json}, Json.ItemsFinite js →
      itemsOfJson (itemsToJson number (itemsOfJson js)) = itemsOfJson js
  | [], _ => rfl
  | j :: js, ⟨first, others⟩ => by
    rw [itemsOfJson, itemsToJson, itemsOfJson, itemsOfJson_itemsToJson carries others,
      survives_ofJson carries first]

theorem survives_entriesOfJson (carries : Json.CarriesFinite number) :
    ∀ {ms : List (String × Json)}, Json.MembersFinite ms →
      ∀ e ∈ entriesOfJson ms, e.2.Survives number
  | [], _ => nofun
  | (k, j) :: ms, ⟨first, others⟩ => by
    rw [entriesOfJson, List.forall_mem_cons]
    exact ⟨survives_ofJson carries first, survives_entriesOfJson carries others⟩

end

end Value

/-- A table of things that are written as values is read back if each of them is. -/
theorem asTable?_params {α : Type} {t : Table String α} {value : α → Value} {ofValue : Value → α}
    (back : ∀ e ∈ t.entries, ofValue (Value.ofJson ((value e.2).toJsonWith number)) = e.2) :
    Json.asTable? (fun j => some (ofValue (Value.ofJson j)))
      (Params.toJsonWith number (t.map fun _ a => value a)) = some t := by
  have written : Params.toJsonWith number (t.map fun _ a => value a) =
      .object (t.entries.map fun e => (e.1, (value e.2).toJsonWith number)) := by
    have entries : (t.map fun _ a => value a).entries =
        t.entries.map fun e => (e.1, value e.2) := rfl
    rw [Params.toJsonWith, Value.ofParams, Value.toJsonWith, Value.entriesToJson_eq_map, entries,
      List.map_map]
    rfl
  rw [written]
  exact Json.asTable?_map (fun a => (value a).toJsonWith number) fun e mem =>
    congrArg some (back e mem)

/-! ## Expressions and constraints -/

namespace Expr

/-- An expression is read back from the document of its source form. -/
def Survives (number : Float → Json) (e : Expr) : Prop :=
  ofValue (Value.ofJson (e.toValue.toJsonWith number)) = e

theorem survives_ofJson (carries : Json.CarriesFinite number) {j : Json} (finite : j.IsFinite) :
    (ofValue (Value.ofJson j)).Survives number := by
  rw [Survives, toValue_ofValue, Value.survives_ofJson carries finite]

end Expr

namespace Constraint

/-- A constraint is read back from the document of its source form. -/
def Survives (number : Float → Json) (c : Constraint) : Prop :=
  ofValue (Value.ofJson (c.toValue.toJsonWith number)) = c

/-- The source form of what a value stands for is the value. -/
theorem toValue_ofValue (v : Value) : (ofValue v).toValue = v := by
  unfold ofValue
  split
  · next name refers =>
    obtain ⟨s, string, refers⟩ := Option.bind_eq_some_iff.1 refers
    obtain ⟨-, rfl⟩ := variableName?_eq_some_iff.1 refers
    cases v with
    | string t =>
      obtain rfl := Option.some.inj string
      rfl
    | _ => cases string
  · rfl

theorem survives_ofJson (carries : Json.CarriesFinite number) {j : Json} (finite : j.IsFinite) :
    (ofValue (Value.ofJson j)).Survives number := by
  rw [Survives, toValue_ofValue, Value.survives_ofJson carries finite]

end Constraint

/-! ## Conditions -/

namespace Condition

theorem source_of_ofText {s : String} {c : Condition} (h : ofText s = .ok c) : c.source = s := by
  unfold ofText at h
  dsimp only at h
  split at h
  · cases h
  · obtain ⟨tokens, -, h⟩ := bind_eq_ok.1 h
    obtain ⟨formula, -, h⟩ := bind_eq_ok.1 h
    cases h
    rfl

/-- A condition is read back from its text, which was kept as it was. -/
theorem ofJson?_source {j : Json} {c : Condition} (h : ofJson? j = some c) :
    ofJson? (.string c.source) = some c := by
  obtain ⟨s, string, read⟩ := Option.bind_eq_some_iff.1 h
  have read : ofText s = .ok c := by
    cases eq : ofText s with
    | ok c' =>
      rw [eq] at read
      obtain rfl := Option.some.inj read
      rfl
    | error _ => rw [eq] at read; cases read
  rw [ofJson?, Json.asString?, Option.bind_some, source_of_ofText read, read]
  rfl

end Condition

/-! ## Patterns -/

namespace Pattern

/-- A pattern is read back from its document. -/
def Survives (number : Float → Json) (p : Pattern) : Prop :=
  ofJson? (p.toJsonWith number) = some p

variable {p : Pattern}

theorem isNamed_toMembers (number : Float → Json) (p : Pattern) :
    List.Forall₂ Json.IsNamed ["event", "params", "capture", "exclusive"] (p.toMembers number) :=
  .cons (Json.isNamed_present.2 rfl) (.cons Json.isNamed_omitIf (.cons Json.isNamed_omitIf
    (.cons Json.isNamed_omitIf .nil)))

/-- A pattern survives if its constraints do. -/
theorem survives_of_params (params : ∀ e ∈ p.params.entries, e.2.Survives number) :
    p.Survives number := by
  obtain ⟨fs, record, found⟩ := Json.exists_record? (f := .json)
    (isNamed_toMembers number p) (by decide)
  have event := Json.Fields.text_eq (found 0 rfl rfl)
  have constraints : fs.optional? "params" (Json.asTable? fun j =>
      some (Constraint.ofValue (Value.ofJson j))) Table.empty = some p.params :=
    Json.Fields.optional?_eq (found 1 rfl rfl) (fun _ => asTable?_params params) Table.eq_empty
  have capture : fs.optional? "capture" (Json.asTable? Json.asString?) Table.empty =
      some p.capture :=
    Json.Fields.optional?_eq (found 2 rfl rfl)
      (fun _ => Json.asTable?_map .string fun _ _ => rfl) Table.eq_empty
  have isExclusive := Json.Fields.flag_eq (found 3 rfl rfl)
  rw [Survives, toJsonWith, ofJson?, record]
  simp only [Option.bind_eq_bind, Option.bind_some, event, constraints, capture, isExclusive]
  rfl

/-- A pattern that was read from a finite document survives. -/
theorem survives_of_ofJson? (carries : Json.CarriesFinite number) {j : Json} (finite : j.IsFinite)
    (h : ofJson? j = some p) : p.Survives number := by
  refine survives_of_params fun e mem => ?_
  simp only [ofJson?, Option.bind_eq_bind, Option.bind_eq_some_iff] at h
  obtain ⟨fs, record, event, -, params, constraints, capture, -, isExclusive, -, same⟩ := h
  obtain rfl := Option.some.inj same
  obtain ⟨i, finite, same⟩ := Json.Fields.exists_of_optional?
    (Json.membersFinite_of_record? finite record) constraints mem
  exact Option.some.inj same ▸ Constraint.survives_ofJson carries finite

end Pattern

end Dialogue
