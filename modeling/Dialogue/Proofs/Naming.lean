import Dialogue.Proofs.Table
import Dialogue.Proofs.Variables
import Mathlib.Logic.Equiv.Basic

/-!
# Names of parameters

A pattern is tested parameter by parameter in the order of their names, and the test stops at the
first parameter that is not as expected or whose variable has no value. So new names for the
parameters, in the pattern and in the event alike, may bring another reason to stop to the front.
This makes a difference only if there are reasons of both kinds: then the names decide whether the
pattern is said not to match or to be in error, and the instance that waits with it goes on waiting
or is ended.

## Main definitions

* `Table.rename`, `Pattern.rename`, `Event.rename` — the same under other names
* `Pattern.SameOutcome` — two tests come to the same
* `Pattern.test` — what the test of one parameter says

## Main results

* `Pattern.toOption_admits` — the first parameter that is not as expected decides
* `Pattern.names_immaterial_iff` — when the names of parameters do not matter
* `Pattern.unbound_overlooked` — a pattern in error for one choice of names and not for another
-/

namespace Dialogue

/-! ## Renaming -/

namespace Table

variable {α β : Type} {f : String → String} {t : Table String α}

/-- A table with other names for its keys. -/
def rename (f : String → String) (t : Table String α) : Table String α :=
  ofList (t.entries.map fun e => (f e.1, e.2))

theorem perm_rename (inj : Function.Injective f) (t : Table String α) :
    (t.rename f).entries.Perm (t.entries.map fun e => (f e.1, e.2)) := by
  refine perm_ofList ?_
  have keys : (t.entries.map fun e => (f e.1, e.2)).map Prod.fst = t.keys.map f := by
    simp [Table.keys]
  rw [keys]
  exact List.Pairwise.map f (fun _ _ ne same => ne (inj same)) t.nodup_keys

theorem mem_rename (inj : Function.Injective f) {e : String × α} :
    e ∈ (t.rename f).entries ↔ ∃ k, (k, e.2) ∈ t.entries ∧ f k = e.1 := by
  rw [(perm_rename inj t).mem_iff, List.mem_map]
  constructor
  · rintro ⟨⟨k, a⟩, mem, rfl⟩
    exact ⟨k, mem, rfl⟩
  · rintro ⟨k, mem, same⟩
    exact ⟨(k, e.2), mem, by rw [same]⟩

theorem get?_rename (inj : Function.Injective f) (t : Table String α) (k : String) :
    (t.rename f).get? (f k) = t.get? k := by
  refine Option.ext fun a => ?_
  rw [← mem_entries, ← mem_entries, mem_rename inj]
  exact ⟨fun ⟨j, mem, same⟩ => inj same ▸ mem, fun mem => ⟨k, mem, rfl⟩⟩

theorem size_rename (inj : Function.Injective f) (t : Table String α) :
    (t.rename f).size = t.size := by
  simpa [Table.size] using (perm_rename inj t).length_eq

theorem values_rename (inj : Function.Injective f) (t : Table String α) :
    (t.rename f).values.Perm t.values := by
  have values : (t.entries.map fun e => (f e.1, e.2)).map Prod.snd = t.values := by
    rw [List.map_map]
    rfl
  exact values ▸ (perm_rename inj t).map Prod.snd

end Table

/-- An event with other names for its parameters. -/
def Event.rename (f : String → String) (e : Event) : Event :=
  { e with parameters := e.parameters.rename f }

theorem Event.parameter?_rename {f : String → String} (inj : Function.Injective f) (e : Event)
    (k : String) : (e.rename f).parameter? (f k) = e.parameter? k :=
  Table.get?_rename inj e.parameters k

/-- What a constraint expects, if its variable has a value. -/
def Constraint.value? (scope : Scope) : Constraint → Option Value
  | literal v => some v
  | var name => scope name

namespace Pattern

/-- A pattern with other names for the parameters that it constrains and captures. -/
def rename (f : String → String) (p : Pattern) : Pattern :=
  { p with params := p.params.rename f, capture := p.capture.rename f }

/-- Two tests come to the same: both find no match, or both find the same match, or in both a
variable of the pattern has no value. -/
inductive SameOutcome :
    Except FlowError (Option Match) → Except FlowError (Option Match) → Prop
  | ok (found : Option Match) : SameOutcome (.ok found) (.ok found)
  | unbound (p q : Pattern) (name other : String) :
    SameOutcome (.error (.unboundInPattern p.display name))
      (.error (.unboundInPattern q.display other))

/-- What the test of one parameter says, unless the variable of its constraint has no value. -/
def test (e : Event) (scope : Scope) (entry : String × Constraint) : Option Bool :=
  (entry.2.value? scope).map fun v => (e.parameter? entry.1).any (· == v)

variable {p q : Pattern} {e e' : Event} {scope : Scope} {f : String → String}

theorem sameOutcome_iff :
    SameOutcome (p.match? e scope) (q.match? e' scope) ↔
      (p.match? e scope).toOption = (q.match? e' scope).toOption := by
  cases hx : p.match? e scope with
  | ok found =>
    cases hy : q.match? e' scope with
    | ok other =>
      refine ⟨fun h => by cases h; rfl, fun h => ?_⟩
      obtain rfl : found = other := Option.some.inj h
      exact .ok found
    | error err => exact ⟨nofun, nofun⟩
  | error err =>
    cases hy : q.match? e' scope with
    | ok other => exact ⟨nofun, nofun⟩
    | error err' =>
      obtain ⟨name, -, -, rfl⟩ := unbound_of_match? hx
      obtain ⟨other, -, -, rfl⟩ := unbound_of_match? hy
      exact ⟨fun _ => rfl, fun _ => .unbound p q name other⟩

/-! ## The parameter that decides -/

/-- The first parameter that is not as expected decides. -/
theorem toOption_admits (l : List (String × Constraint)) :
    (p.admits e scope l).toOption =
      ((l.map (test e scope)).find? (· != some true)).getD (some true) := by
  induction l with
  | nil => rfl
  | cons entry rest ih =>
    obtain ⟨k, c⟩ := entry
    have expected : (test e scope (k, c)) =
        (c.value? scope).map fun v => (e.parameter? k).any (· == v) := rfl
    rw [List.map_cons, List.find?_cons, expected]
    -- A test comes to nothing if the variable is unbound, and to no if the value is another one.
    cases c with
    | literal v =>
      rw [admits]
      cases met : (e.parameter? k).any (· == v) with
      | true => simp [Constraint.value?, met, ih]
      | false => simp [Constraint.value?, met]; rfl
    | var name =>
      rw [admits]
      cases bound : scope name with
      | none => simp [Constraint.value?, bound]; rfl
      | some v =>
        cases met : (e.parameter? k).any (· == v) with
        | true => simp [Constraint.value?, bound, met, ih]
        | false => simp [Constraint.value?, bound, met]; rfl

/-- What comes of a test is what comes of the parameters, unless the event has another name. -/
theorem toOption_match? :
    (p.match? e scope).toOption =
      if p.event = e.name then
        (p.admits e scope p.params.entries).toOption.map fun admitted =>
          if admitted then some ⟨p.captured e, p.specificity⟩ else none
      else some none := by
  unfold match?
  by_cases same : p.event = e.name
  · simp only [same, bne_self_eq_false, Bool.false_eq_true, ↓reduceIte]
    cases p.admits e scope p.params.entries <;> rfl
  · simp only [bne_iff_ne.2 same, same, ↓reduceIte]
    rfl

/-- If all tests that fail fail alike, it does not matter which of them comes first. -/
theorem find?_eq_of_perm {l m : List (Option Bool)} (perm : l.Perm m)
    (alike : none ∉ l ∨ some false ∉ l) :
    (l.find? (· != some true)).getD (some true) = (m.find? (· != some true)).getD (some true) := by
  cases hl : l.find? (· != some true) with
  | none =>
    have all : m.find? (· != some true) = none :=
      List.find?_eq_none.2 fun a mem => List.find?_eq_none.1 hl a (perm.mem_iff.2 mem)
    rw [all]
  | some a =>
    have ha := List.mem_of_find?_eq_some hl
    have failsA := List.find?_some hl
    -- The other list has a test that fails as well, though maybe another one.
    have found : (m.find? (· != some true)).isSome :=
      List.find?_isSome.2 ⟨a, perm.mem_iff.1 ha, failsA⟩
    obtain ⟨b, hm⟩ := Option.isSome_iff_exists.1 found
    have hb := perm.mem_iff.2 (List.mem_of_find?_eq_some hm)
    have failsB := List.find?_some hm
    rw [hm]
    -- All tests that fail do so in the same way.
    match a, b with
    | some true, _ => simp at failsA
    | _, some true => simp at failsB
    | none, none => rfl
    | some false, some false => rfl
    | none, some false => exact absurd alike (by simp [ha, hb])
    | some false, none => exact absurd alike (by simp [ha, hb])

/-! ## Other names -/

section Rename

variable (inj : Function.Injective f)

include inj

theorem test_rename (k : String) (c : Constraint) :
    test (e.rename f) scope (f k, c) = test e scope (k, c) := by
  rw [test, test, Event.parameter?_rename inj]

/-- The tests are the same, up to their order. -/
theorem tests_rename (p : Pattern) (e : Event) (scope : Scope) :
    (p.params.entries.map (test e scope)).Perm
      ((p.rename f).params.entries.map (test (e.rename f) scope)) := by
  have renamed := (Table.perm_rename inj p.params).map (test (e.rename f) scope)
  rw [List.map_map] at renamed
  have same : test (e.rename f) scope ∘ (fun entry => (f entry.1, entry.2)) = test e scope :=
    funext fun entry => test_rename inj entry.1 entry.2
  exact (same ▸ renamed).symm

/-- What is captured does not depend on the names, if no two parameters go to one variable. -/
theorem captured_rename (apart : p.capture.values.Nodup) :
    (p.rename f).captured (e.rename f) = p.captured e := by
  -- Both tables have one entry for each captured parameter.
  have entries (q : Pattern) (e : Event) (apart : q.capture.values.Nodup) (var : String)
      (v : Value) : (q.captured e).get? var = some v ↔
        ∃ k, (k, var) ∈ q.capture.entries ∧ (e.parameter? k).getD .null = v := by
    have keys : (q.capture.entries.map fun entry =>
        (entry.2, (e.parameter? entry.1).getD .null)).map Prod.fst = q.capture.values := by
      rw [List.map_map]
      rfl
    rw [captured, ← Table.mem_entries, Table.mem_entries_ofList (keys ▸ apart), List.mem_map]
    constructor
    · rintro ⟨⟨k, var⟩, mem, same⟩
      cases same
      exact ⟨k, mem, rfl⟩
    · rintro ⟨k, mem, rfl⟩
      exact ⟨(k, var), mem, rfl⟩
  have apart' : (p.rename f).capture.values.Nodup :=
    (Table.values_rename inj p.capture).nodup_iff.2 apart
  refine Table.ext_get? fun var => Option.ext fun v => ?_
  rw [entries _ _ apart', entries _ _ apart]
  constructor
  · rintro ⟨k', mem, same⟩
    obtain ⟨k, mem, rfl⟩ := (Table.mem_rename inj).1 mem
    exact ⟨k, mem, by rwa [Event.parameter?_rename inj] at same⟩
  · rintro ⟨k, mem, same⟩
    exact ⟨f k, (Table.mem_rename inj).2 ⟨k, mem, rfl⟩, by rwa [Event.parameter?_rename inj]⟩

end Rename

/-! ## Exchanged names -/

/-- The first of sorted entries with a property is the one behind all whose keys are smaller. -/
theorem find?_eq_of_sorted {α : Type} {test : String × α → Bool} {x : String × α}
    {l : List (String × α)} (sorted : l.Pairwise fun a b => compare a.1 b.1 = .lt) (mem : x ∈ l)
    (holds : test x = true) (before : ∀ y ∈ l, compare y.1 x.1 = .lt → test y = false) :
    l.find? test = some x := by
  induction l with
  | nil => cases mem
  | cons a rest ih =>
    obtain ⟨head, tail⟩ := List.pairwise_cons.1 sorted
    rcases List.mem_cons.1 mem with rfl | mem
    · rw [List.find?_cons, holds]
    · rw [List.find?_cons, before a List.mem_cons_self (head x mem)]
      exact ih tail mem fun y hy => before y (List.mem_cons_of_mem _ hy)

/-- Sorted entries with smaller keys than the first one with a property do not have it. -/
theorem eq_false_of_lt {α : Type} {test : String × α → Bool} {x y : String × α}
    {l : List (String × α)} (sorted : l.Pairwise fun a b => compare a.1 b.1 = .lt)
    (first : l.find? test = some x) (mem : y ∈ l) (before : compare y.1 x.1 = .lt) :
    test y = false := by
  induction l with
  | nil => cases mem
  | cons a rest ih =>
    obtain ⟨head, tail⟩ := List.pairwise_cons.1 sorted
    rw [List.find?_cons] at first
    cases holds : test a with
    | true =>
      rw [holds] at first
      obtain rfl : a = x := Option.some.inj first
      -- The first entry has the property already, and no key is smaller than its key.
      have after : compare a.1 y.1 ≠ .gt := by
        rcases List.mem_cons.1 mem with rfl | mem
        · simp
        · simp [head y mem]
      exact absurd (Std.OrientedCmp.gt_of_lt before) after
    | false =>
      rw [holds] at first
      rcases List.mem_cons.1 mem with rfl | mem
      · exact holds
      · exact ih tail first mem

/-- If the first failing test and another one exchange their names, the other one decides. -/
theorem toOption_admits_swap {x y : String × Constraint} (mem : y ∈ p.params.entries)
    (first : p.params.entries.find? (test e scope · != some true) = some x)
    (fails : test e scope y ≠ some true) :
    ((p.rename (Equiv.swap x.1 y.1)).admits (e.rename (Equiv.swap x.1 y.1)) scope
      (p.rename (Equiv.swap x.1 y.1)).params.entries).toOption = test e scope y := by
  have inj : Function.Injective (Equiv.swap x.1 y.1) := (Equiv.swap x.1 y.1).injective
  have back : Equiv.swap x.1 y.1 y.1 = x.1 := Equiv.swap_apply_right x.1 y.1
  have earlier (z : String × Constraint) (hz : z ∈ p.params.entries)
      (before : compare z.1 x.1 = .lt) : test e scope z = some true := by
    simpa using eq_false_of_lt p.params.sorted first hz before
  have moved : test (e.rename (Equiv.swap x.1 y.1)) scope (x.1, y.2) = test e scope y := by
    have same : test (e.rename (Equiv.swap x.1 y.1)) scope (_, y.2) = _ := test_rename inj y.1 y.2
    rwa [back] at same
  have found : (p.rename (Equiv.swap x.1 y.1)).params.entries.find?
      (test (e.rename (Equiv.swap x.1 y.1)) scope · != some true) = some (x.1, y.2) := by
    refine find?_eq_of_sorted (Table.sorted _) ?_ ?_ fun z hz before => ?_
    · exact (Table.mem_rename inj).2 ⟨y.1, mem, back⟩
    · rw [moved]
      exact bne_iff_ne.2 fails
    · obtain ⟨k, hk, name⟩ := (Table.mem_rename inj).1 hz
      -- Neither of the two comes before the first one, so this one has its old name.
      have notFirst : k ≠ x.1 := by
        rintro rfl
        rw [Equiv.swap_apply_left] at name
        exact fails (earlier y mem (name ▸ before))
      have notOther : k ≠ y.1 := by
        rintro rfl
        rw [← name, back] at before
        simp at before
      rw [Equiv.swap_apply_of_ne_of_ne notFirst notOther] at name
      have same : test (e.rename (Equiv.swap x.1 y.1)) scope (_, z.2) = _ := test_rename inj k z.2
      rw [Equiv.swap_apply_of_ne_of_ne notFirst notOther] at same
      obtain ⟨k', c⟩ := z
      subst name
      rw [same, earlier _ hk before]
      rfl
  rw [toOption_admits, List.find?_map, Function.comp_def, found]
  exact moved

/-- If some entries are missed and some are stuck, there is one of the other kind than the first. -/
theorem exists_other_kind {l : List (String × Constraint)} {stuck missed : String × Constraint}
    (hs : stuck ∈ l) (isStuck : test e scope stuck = none)
    (hm : missed ∈ l) (isMissed : test e scope missed = some false) :
    ∃ x y, l.find? (test e scope · != some true) = some x ∧ y ∈ l ∧
      test e scope y ≠ some true ∧ test e scope x ≠ some true ∧
        test e scope x ≠ test e scope y := by
  have some_fails : (l.find? (test e scope · != some true)).isSome :=
    List.find?_isSome.2 ⟨stuck, hs, by simp [isStuck]⟩
  obtain ⟨x, first⟩ := Option.isSome_iff_exists.1 some_fails
  have fails : test e scope x ≠ some true := by simpa using List.find?_some first
  cases kind : test e scope x with
  | none => exact ⟨x, missed, first, hm, by simp [isMissed], fails, by simp [kind, isMissed]⟩
  | some met => exact ⟨x, stuck, first, hs, by simp [isStuck], fails, by simp [kind, isStuck]⟩

/-- Which kind of failure has decided shows in the outcome. -/
theorem eq_of_outcome_eq {a b : Option Bool} {m n : Match} (ha : a ≠ some true)
    (hb : b ≠ some true)
    (same : (a.map fun admitted => if admitted then some m else none) =
      b.map fun admitted => if admitted then some n else none) : a = b := by
  match a, b with
  | none, none => rfl
  | some false, some false => rfl
  | some true, _ => exact absurd rfl ha
  | _, some true => exact absurd rfl hb
  | none, some false => cases same
  | some false, none => cases same

/-- Under all choices of names for the parameters a pattern and an event come to the same, if and
only if not, for an event that the pattern names, there are both a constraint whose variable has no
value and a parameter that has not the value which its constraint expects. -/
theorem names_immaterial_iff (p : Pattern) (e : Event) (scope : Scope)
    (apart : p.capture.values.Nodup) :
    (∀ f, Function.Injective f →
        SameOutcome (p.match? e scope) ((p.rename f).match? (e.rename f) scope)) ↔
      ¬(p.event = e.name ∧
        (∃ k c, (k, c) ∈ p.params.entries ∧ c.value? scope = none) ∧
        ∃ k c v, (k, c) ∈ p.params.entries ∧ c.value? scope = some v ∧
          (e.parameter? k).any (· == v) = false) := by
  constructor
  · rintro immaterial ⟨named, ⟨k, c, hs, unbound⟩, k', c', v, hm, bound, missed⟩
    have isStuck : test e scope (k, c) = none := by simp [test, unbound]
    have isMissed : test e scope (k', c') = some false := by simp [test, bound, missed]
    obtain ⟨x, y, first, hy, failsY, failsX, differ⟩ := exists_other_kind hs isStuck hm isMissed
    -- The first one that fails and one of the other kind exchange their names.
    have decides : (p.admits e scope p.params.entries).toOption = test e scope x := by
      rw [toOption_admits, List.find?_map, Function.comp_def, first]
      rfl
    have same := sameOutcome_iff.1 (immaterial _ (Equiv.swap x.1 y.1).injective)
    rw [toOption_match?, toOption_match?, if_pos named,
      if_pos (show (p.rename _).event = (e.rename _).name from named), decides,
      toOption_admits_swap hy first failsY] at same
    exact differ (eq_of_outcome_eq failsX failsY same)
  · intro notBoth f inj
    rw [sameOutcome_iff, toOption_match?, toOption_match?]
    by_cases named : p.event = e.name
    · have alike : none ∉ p.params.entries.map (test e scope) ∨
          some false ∉ p.params.entries.map (test e scope) := by
        rw [← not_and_or]
        rintro ⟨stuck, missed⟩
        obtain ⟨⟨k, c⟩, hs, isStuck⟩ := List.mem_map.1 stuck
        obtain ⟨⟨k', c'⟩, hm, isMissed⟩ := List.mem_map.1 missed
        obtain ⟨v, bound, fails⟩ := Option.map_eq_some_iff.1 isMissed
        exact notBoth ⟨named, ⟨k, c, hs, Option.map_eq_none_iff.1 isStuck⟩,
          k', c', v, hm, bound, fails⟩
      have admitted : (p.admits e scope p.params.entries).toOption =
          ((p.rename f).admits (e.rename f) scope (p.rename f).params.entries).toOption := by
        rw [toOption_admits, toOption_admits]
        exact find?_eq_of_perm (tests_rename inj p e scope) alike
      have specific : (p.rename f).specificity = p.specificity := Table.size_rename inj p.params
      rw [admitted, captured_rename inj apart, specific]
      rfl
    · rw [if_neg named]
      exact (if_neg named).symm

/-- Waits for the user to say what was announced, and notes the mood. -/
def attentive : Pattern :=
  ⟨EventName.userSaid,
    Table.ofList [("language", .literal (.string "en")), ("text", .var "announced")],
    Table.ofList [("mood", "mood"), ("text", "heard")], false⟩

theorem names_immaterial_iff_attentive :
    attentive.capture.values.Nodup ∧
      let e := Event.of EventName.userSaid [("language", .string "en"), ("text", .string "hi")]
      let scope : Scope := fun _ => some (.string "hi")
      (∃ m, attentive.match? e scope = .ok (some m)) ∧
        ∀ f, Function.Injective f → SameOutcome (attentive.match? e scope)
          ((attentive.rename f).match? (e.rename f) scope) := by
  have apart : attentive.capture.values.Nodup := by decide +kernel
  refine ⟨apart, ⟨_, rfl⟩, (names_immaterial_iff attentive _ _ apart).2 ?_⟩
  rintro ⟨-, ⟨k, c, -, unbound⟩, -⟩
  cases c <;> cases unbound

/-- Waits for an event with a certain value, and with that of a variable. -/
def hesitant : Pattern :=
  ⟨EventName.userSaid, Table.ofList [("a", .literal (.string "x")), ("b", .var "missing")], ∅,
    false⟩

/-- The variable has no value, but as long as its parameter is not the first one, the pattern is
said not to match. If the names of the two parameters are exchanged, it is in error. -/
theorem unbound_overlooked :
    let e := Event.userSaid "hi"
    let scope : Scope := fun _ => none
    let f := Equiv.swap "a" "b"
    hesitant.capture.values.Nodup ∧ Function.Injective f ∧
      hesitant.match? e scope = .ok none ∧
      (hesitant.rename f).match? (e.rename f) scope =
        .error (.unboundInPattern (hesitant.rename f).display "missing") ∧
      ¬ SameOutcome (hesitant.match? e scope) ((hesitant.rename f).match? (e.rename f) scope) :=
  ⟨by decide +kernel, (Equiv.swap "a" "b").injective, rfl, rfl, nofun⟩

end Pattern

end Dialogue
