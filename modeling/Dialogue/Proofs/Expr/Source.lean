import Dialogue.Proofs.Expr.Template

/-!
# Expressions in source form

An expression is written as a value, and the value tells the expression: nothing gets lost on the
way there and back. What is read so has a canonical form, in which the variables of a template are
the placeholders that stand in its text. Its value is the written one with everything filled in: a
string that is a reference becomes the value of the variable, and the placeholders of any other
string become the texts of the values of theirs. This is one pass, in which keys stay as they are
and what has been filled in is not looked at again.

## Main definitions

* `RefersTo` — a string is a reference to a variable
* `Expr.IsCanonical` — the form of expressions that are read from a value
* `Value.Filled` — a value with the values of variables filled in

## Main results

* `Expr.toValue_ofValue`, `Expr.isCanonical_ofValue`
* `Expr.eval_ofValue_iff` — what is evaluated is what is filled in
* `Expr.source_kept_and_filled` — the laws of the source form
-/

namespace Dialogue

/-- A string is a reference to a variable. -/
def RefersTo (s name : String) : Prop := isIdentifier name = true ∧ s = "$" ++ name

theorem variableName?_eq_some_iff {s name : String} :
    variableName? s = some name ↔ RefersTo s name := by
  constructor
  · intro h
    unfold variableName? at h
    split at h
    · next cs eq =>
      split at h
      · next proper =>
        obtain rfl := Option.some.inj h
        refine ⟨by simpa [isIdentifier] using proper, ?_⟩
        rw [← String.toList_inj, eq]
        simp
      · cases h
    · cases h
  · rintro ⟨proper, rfl⟩
    have proper : isIdentifierList name.toList = true := proper
    simp [variableName?, proper]

/-! ## Filling in -/

namespace Value

mutual

/-- A value in which the values of variables have taken the places of what refers to them. -/
def Filled (scope : Scope) : Value → Value → Prop
  | .string s, w =>
    (∃ name, RefersTo s name ∧ scope name = some w) ∨
      (∀ name, ¬RefersTo s name) ∧ ∃ t, w = .string t ∧ Segment.Fills scope s.toList t.toList
  | .list xs, w => ∃ ys, w = .list ys ∧ ItemsFilled scope xs ys
  | .map es, w => ∃ fs, w = .map fs ∧ EntriesFilled scope es fs
  | v, w => w = v

/-- The items of a list, each filled in. -/
def ItemsFilled (scope : Scope) : List Value → List Value → Prop
  | [], ys => ys = []
  | x :: xs, ys => ∃ y rest, ys = y :: rest ∧ Filled scope x y ∧ ItemsFilled scope xs rest

/-- The entries of a map, each filled in under its key. -/
def EntriesFilled (scope : Scope) : List (String × Value) → List (String × Value) → Prop
  | [], fs => fs = []
  | (k, x) :: es, fs =>
    ∃ y rest, fs = (k, y) :: rest ∧ Filled scope x y ∧ EntriesFilled scope es rest

end

/-- A value that has no parts and refers to nothing. -/
def IsPlain : Value → Prop
  | .string s => (∀ name, ¬RefersTo s name) ∧ ∀ i name, ¬Segment.StandsAt s.toList i name
  | .list _ | .map _ => False
  | .null | .bool _ | .number _ => True

end Value

namespace Expr

mutual

/-- Variables have proper names, templates are as the pass over a text leaves them, and literals
refer to nothing. -/
def IsCanonical : Expr → Prop
  | literal v => v.IsPlain
  | var name => isIdentifier name = true
  | template segments => Segment.AreCanonical segments
  | list items => ItemsCanonical items
  | map entries => EntriesCanonical entries

/-- The items of a list are canonical. -/
def ItemsCanonical : List Expr → Prop
  | [] => True
  | e :: es => IsCanonical e ∧ ItemsCanonical es

/-- The entries of a map are canonical. -/
def EntriesCanonical : List (String × Expr) → Prop
  | [] => True
  | (_, e) :: es => IsCanonical e ∧ EntriesCanonical es

end

/-! ## Strings -/

variable {s name : String} {scope : Scope} {w : Value}

theorem ofString_of_refersTo (h : RefersTo s name) : ofString s = .var name := by
  rw [ofString, variableName?_eq_some_iff.2 h]

theorem ofString_of_parts (h : ∀ name, ¬RefersTo s name) (parts : (Segment.cut s.toList).2 ≠ []) :
    ofString s = .template (Segment.segmentsOf s.toList) := by
  have none : variableName? s = none := Option.eq_none_iff_forall_ne_some.2 fun name eq =>
    h name (variableName?_eq_some_iff.1 eq)
  rw [ofString, none, Segment.parse?_eq, if_neg parts]

theorem ofString_of_no_parts (h : ∀ name, ¬RefersTo s name)
    (parts : (Segment.cut s.toList).2 = []) : ofString s = .literal (.string s) := by
  have none : variableName? s = none := Option.eq_none_iff_forall_ne_some.2 fun name eq =>
    h name (variableName?_eq_some_iff.1 eq)
  rw [ofString, none, Segment.parse?_eq, if_pos parts]

/-- A string is a reference, or has placeholders, or stands for itself. -/
theorem ofString_cases {P : String → Expr → Prop} (s : String)
    (reference : ∀ name, RefersTo s name → P s (.var name))
    (parts : (∀ name, ¬RefersTo s name) → (Segment.cut s.toList).2 ≠ [] →
      P s (.template (Segment.segmentsOf s.toList)))
    (plain : (∀ name, ¬RefersTo s name) → (Segment.cut s.toList).2 = [] →
      P s (.literal (.string s))) : P s (ofString s) := by
  by_cases h : ∃ name, RefersTo s name
  · obtain ⟨name, h⟩ := h
    rw [ofString_of_refersTo h]
    exact reference name h
  · have h := not_exists.1 h
    by_cases none : (Segment.cut s.toList).2 = []
    · rw [ofString_of_no_parts h none]
      exact plain h none
    · rw [ofString_of_parts h none]
      exact parts h none

theorem toValue_ofString (s : String) : (ofString s).toValue = .string s := by
  refine ofString_cases (P := fun s e => e.toValue = .string s) s ?_ ?_ ?_
  · rintro name ⟨-, same⟩
    rw [toValue, same]
  · intro _ _
    rw [toValue, Segment.join_segmentsOf, String.ofList_toList]
  · intro _ _
    rw [toValue]

theorem isCanonical_ofString (s : String) : (ofString s).IsCanonical := by
  refine ofString_cases (P := fun _ e => e.IsCanonical) s ?_ ?_ ?_
  · intro name h
    rw [IsCanonical]
    exact h.1
  · intro _ parts
    rw [IsCanonical]
    exact Segment.areCanonical_segmentsOf parts
  · intro h none
    rw [IsCanonical]
    exact ⟨h, Segment.cut_eq_nil_iff.1 none⟩

theorem eval_template_iff {segments : List Segment} :
    (template segments).eval scope = .ok w ↔
      ∃ t, w = .string t ∧ Segment.Render scope segments t.toList := by
  rw [eval, bind_eq_ok]
  constructor
  · rintro ⟨texts, found, same⟩
    cases same
    exact ⟨_, rfl, texts, found, rfl⟩
  · rintro ⟨t, rfl, texts, found, same⟩
    rw [String.toList_inj] at same
    exact ⟨texts, found, same ▸ rfl⟩

theorem eval_ofString_iff (s : String) (w : Value) :
    (ofString s).eval scope = .ok w ↔ (Value.string s).Filled scope w := by
  rw [Value.Filled]
  refine ofString_cases (P := fun s e => e.eval scope = .ok w ↔
    (∃ name, RefersTo s name ∧ scope name = some w) ∨
      (∀ name, ¬RefersTo s name) ∧ ∃ t, w = .string t ∧
        Segment.Fills scope s.toList t.toList) s ?_ ?_ ?_
  · intro name h
    -- A text refers to at most one variable.
    have only : (∃ other, RefersTo s other ∧ scope other = some w) ↔ scope name = some w := by
      refine ⟨fun ⟨other, h', bound⟩ => ?_, fun bound => ⟨name, h, bound⟩⟩
      rw [← variableName?_eq_some_iff] at h h'
      rwa [← Option.some.inj (h'.symm.trans h)]
    rw [only, eval, resolve, or_iff_left fun other => other.1 name h]
    cases scope name <;> simp
  · intro h _
    rw [eval_template_iff, or_iff_right fun ⟨name, reference, _⟩ => h name reference]
    simp only [Segment.fills_iff, and_iff_right h]
  · intro h none
    -- Without placeholders the text is all there is.
    have only : Segment.segmentsOf s.toList = Segment.ofText s.toList ++ [] := by
      rw [Segment.segmentsOf_of_no_parts none, List.append_nil]
    rw [eval, or_iff_right fun ⟨name, reference, _⟩ => h name reference, and_iff_right h]
    simp only [Segment.fills_iff, only, Segment.render_ofText, Segment.render_nil]
    simp [String.toList_inj, eq_comm]

/-! ## Values -/

mutual

/-- The source form of what a value stands for is the value. -/
theorem toValue_ofValue : ∀ v : Value, (ofValue v).toValue = v
  | .string s => by rw [ofValue, toValue_ofString]
  | .list xs => by rw [ofValue, toValue, itemsToValue_itemsOfValue]
  | .map es => by rw [ofValue, toValue, entriesToValue_entriesOfValue]
  | .null => rfl
  | .bool _ => rfl
  | .number _ => rfl

theorem itemsToValue_itemsOfValue : ∀ xs : List Value, itemsToValue (itemsOfValue xs) = xs
  | [] => by rw [itemsOfValue, itemsToValue]
  | x :: xs => by rw [itemsOfValue, itemsToValue, toValue_ofValue, itemsToValue_itemsOfValue]

theorem entriesToValue_entriesOfValue : ∀ es : List (String × Value),
    entriesToValue (entriesOfValue es) = es
  | [] => by rw [entriesOfValue, entriesToValue]
  | (k, x) :: es => by
    rw [entriesOfValue, entriesToValue, toValue_ofValue, entriesToValue_entriesOfValue]

end

mutual

/-- What a value stands for is canonical. -/
theorem isCanonical_ofValue : ∀ v : Value, (ofValue v).IsCanonical
  | .string s => by
    rw [ofValue]
    exact isCanonical_ofString s
  | .list xs => by
    rw [ofValue, IsCanonical]
    exact itemsCanonical_itemsOfValue xs
  | .map es => by
    rw [ofValue, IsCanonical]
    exact entriesCanonical_entriesOfValue es
  | .null => trivial
  | .bool _ => trivial
  | .number _ => trivial

theorem itemsCanonical_itemsOfValue : ∀ xs : List Value, ItemsCanonical (itemsOfValue xs)
  | [] => trivial
  | x :: xs => by
    rw [itemsOfValue, ItemsCanonical]
    exact ⟨isCanonical_ofValue x, itemsCanonical_itemsOfValue xs⟩

theorem entriesCanonical_entriesOfValue : ∀ es : List (String × Value),
    EntriesCanonical (entriesOfValue es)
  | [] => trivial
  | (k, x) :: es => by
    rw [entriesOfValue, EntriesCanonical]
    exact ⟨isCanonical_ofValue x, entriesCanonical_entriesOfValue es⟩

end

mutual

/-- The value of an expression is its source form with everything filled in. -/
theorem eval_ofValue_iff : ∀ v w : Value, (ofValue v).eval scope = .ok w ↔ v.Filled scope w
  | .string s, w => by
    rw [ofValue]
    exact eval_ofString_iff s w
  | .list xs, w => by
    rw [ofValue, eval, bind_eq_ok, Value.Filled]
    refine exists_congr fun ys => ?_
    rw [evalItems_itemsOfValue_iff, and_comm]
    exact and_congr_left fun _ => by simp [pure, Except.pure, eq_comm]
  | .map es, w => by
    rw [ofValue, eval, bind_eq_ok, Value.Filled]
    refine exists_congr fun fs => ?_
    rw [evalEntries_entriesOfValue_iff, and_comm]
    exact and_congr_left fun _ => by simp [pure, Except.pure, eq_comm]
  | .null, w | .bool _, w | .number _, w => by
    simp [ofValue, eval, Value.Filled, eq_comm]

theorem evalItems_itemsOfValue_iff : ∀ xs ys : List Value,
    evalItems scope (itemsOfValue xs) = .ok ys ↔ Value.ItemsFilled scope xs ys
  | [], ys => by simp [itemsOfValue, evalItems, Value.ItemsFilled, eq_comm]
  | x :: xs, ys => by
    simp only [itemsOfValue, evalItems, bind_eq_ok, eval_ofValue_iff x,
      evalItems_itemsOfValue_iff xs, Value.ItemsFilled]
    constructor
    · rintro ⟨y, first, rest, others, same⟩
      exact ⟨y, rest, (Except.ok.inj same).symm, first, others⟩
    · rintro ⟨y, rest, rfl, first, others⟩
      exact ⟨y, first, rest, others, rfl⟩

theorem evalEntries_entriesOfValue_iff : ∀ es fs : List (String × Value),
    evalEntries scope (entriesOfValue es) = .ok fs ↔ Value.EntriesFilled scope es fs
  | [], fs => by simp [entriesOfValue, evalEntries, Value.EntriesFilled, eq_comm]
  | (k, x) :: es, fs => by
    simp only [entriesOfValue, evalEntries, bind_eq_ok, eval_ofValue_iff x,
      evalEntries_entriesOfValue_iff es, Value.EntriesFilled]
    constructor
    · rintro ⟨y, first, rest, others, same⟩
      exact ⟨y, rest, (Except.ok.inj same).symm, first, others⟩
    · rintro ⟨y, rest, rfl, first, others⟩
      exact ⟨y, first, rest, others, rfl⟩

end

/-- Every value is the source form of what it stands for, and that is canonical. Where all variables
that it reads have values, its own value is the written one with everything filled in, and nothing
else is. -/
theorem source_kept_and_filled (v : Value) :
    (ofValue v).toValue = v ∧ (ofValue v).IsCanonical ∧
      ∀ scope : Scope, (∀ name ∈ (ofValue v).variableNames, ∃ value, scope name = some value) →
        ∃ w, (ofValue v).eval scope = .ok w ∧ ∀ u, v.Filled scope u ↔ u = w := by
  refine ⟨toValue_ofValue v, isCanonical_ofValue v, fun scope bound => ?_⟩
  have none : scope.firstUnbound? (ofValue v).variableNames = none := by
    refine List.find?_eq_none.2 fun name mem => ?_
    obtain ⟨value, eq⟩ := bound name mem
    simp [eq]
  obtain ⟨w, value⟩ := (stopsAtUnbound_eval (ofValue v)).exists_ok none
  refine ⟨w, value, fun u => ?_⟩
  rw [← eval_ofValue_iff, value, Except.ok.injEq, eq_comm]

end Expr

end Dialogue
