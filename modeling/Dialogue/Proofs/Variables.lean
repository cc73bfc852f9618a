import Dialogue.Condition
import Dialogue.Pattern

/-!
# The variables that matter

Expressions, conditions and event patterns list the variables that they read. The lists are
complete: two scopes that agree on the listed names are not told apart. What is evaluated fails only
because of a listed name. An expression reads all that it lists, one name after the other, so it
fails just if one of them has no value, and at the first such one. A condition may leave names
aside, and a pattern stops at the first parameter that is not as expected.

## Main definitions

* `Scope.AgreesWith` — two scopes make no difference between some names
* `Scope.firstUnbound?` — the first of some names that has no value
* `Scope.StopsAtUnbound` — a computation needs values for some names, and for nothing else

## Main results

* `Expr.eval_congr`, `Condition.eval_congr`, `Pattern.match?_congr`
* `Expr.stopsAtUnbound_eval` — why and where an expression fails
* `listed_variables_decide` — the lists tell everything that an evaluation reads
-/

namespace Dialogue

/-- What fails of two computations, one after the other. -/
theorem bind_eq_error {ε α β : Type} {x : Except ε α} {f : α → Except ε β} {err : ε} :
    x >>= f = .error err ↔ x = .error err ∨ ∃ a, x = .ok a ∧ f a = .error err := by
  cases x <;> simp [bind, Except.bind]

/-- What comes of two computations, one after the other. -/
theorem bind_eq_ok {ε α β : Type} {x : Except ε α} {f : α → Except ε β} {b : β} :
    x >>= f = .ok b ↔ ∃ a, x = .ok a ∧ f a = .ok b := by
  cases x <;> simp [bind, Except.bind]

/-- What a test finds in a result is there. -/
theorem exists_of_toOption_any {ε α : Type} {x : Except ε α} {p : α → Bool}
    (h : x.toOption.any p = true) : ∃ a, x = .ok a ∧ p a = true := by
  cases x with
  | error e => cases h
  | ok a => exact ⟨a, rfl, h⟩

/-! ## Scopes -/

namespace Scope

/-- Two scopes give the same values to some names, and have none for the same of them. -/
def AgreesWith (s t : Scope) (names : List String) : Prop := ∀ name ∈ names, s name = t name

/-- The first of some names that has no value. -/
def firstUnbound? (s : Scope) (names : List String) : Option String :=
  names.find? fun name => (s name).isNone

variable {s t : Scope} {names others : List String} {name : String}

theorem agreesWith_append :
    s.AgreesWith t (names ++ others) ↔ s.AgreesWith t names ∧ s.AgreesWith t others :=
  List.forall_mem_append

theorem firstUnbound?_append :
    s.firstUnbound? (names ++ others) = (s.firstUnbound? names).or (s.firstUnbound? others) :=
  List.find?_append

theorem mem_of_firstUnbound? (h : s.firstUnbound? names = some name) :
    name ∈ names ∧ s name = none := by
  have unbound := List.find?_some h
  exact ⟨List.mem_of_find?_eq_some h, Option.isNone_iff_eq_none.1 unbound⟩

/-- A computation asks a scope for some names in their order: it fails just if one of them has no
value, and then because of the first one. -/
def StopsAtUnbound {α : Type} (s : Scope) (names : List String) (x : Except FlowError α) : Prop :=
  ∀ err, x = .error err ↔ ∃ name, s.firstUnbound? names = some name ∧ err = .unbound name

namespace StopsAtUnbound

variable {α β : Type} {x : Except FlowError α}

theorem ok (a : α) : s.StopsAtUnbound [] (.ok a : Except FlowError α) := fun err => by
  simp [firstUnbound?]

theorem exists_ok (h : s.StopsAtUnbound names x) (bound : s.firstUnbound? names = none) :
    ∃ a, x = .ok a := by
  cases value : x with
  | ok a => exact ⟨a, rfl⟩
  | error err =>
    obtain ⟨name, found, -⟩ := (h err).1 value
    rw [bound] at found
    cases found

theorem bind {f : α → Except FlowError β} (hx : s.StopsAtUnbound names x)
    (hf : ∀ a, s.StopsAtUnbound others (f a)) : s.StopsAtUnbound (names ++ others) (x >>= f) := by
  intro err
  rw [firstUnbound?_append, bind_eq_error]
  cases first : s.firstUnbound? names with
  | some name =>
    -- The second computation is never reached.
    have stopped : x = .error (.unbound name) := (hx _).2 ⟨name, first, rfl⟩
    simp [stopped, eq_comm]
  | none =>
    obtain ⟨a, value⟩ := hx.exists_ok first
    simp [value, hf a err]

theorem map (hx : s.StopsAtUnbound names x) (f : α → β) :
    s.StopsAtUnbound names (x >>= fun a => .ok (f a)) := by
  have both := hx.bind fun a => StopsAtUnbound.ok (s := s) (f a)
  rwa [List.append_nil] at both

theorem exists_error_iff (h : s.StopsAtUnbound names x) :
    (∃ err, x = .error err) ↔ ∃ name ∈ names, s name = none := by
  constructor
  · rintro ⟨err, failed⟩
    obtain ⟨name, first, -⟩ := (h err).1 failed
    exact ⟨name, mem_of_firstUnbound? first⟩
  · rintro ⟨name, mem, unbound⟩
    have found : (s.firstUnbound? names).isSome :=
      List.find?_isSome.2 ⟨name, mem, Option.isNone_iff_eq_none.2 unbound⟩
    obtain ⟨first, first_eq⟩ := Option.isSome_iff_exists.1 found
    exact ⟨_, (h _).2 ⟨first, first_eq, rfl⟩⟩

end StopsAtUnbound

end Scope

variable {s t : Scope} {err : FlowError}

/-! ## Expressions -/

namespace Expr

theorem resolve_congr {name : String} (h : s name = t name) : resolve s name = resolve t name := by
  rw [resolve, resolve, h]

theorem segments_congr {segments : List Segment}
    (h : s.AgreesWith t (segments.filterMap Segment.reads?)) :
    segments.mapM (segmentText s) = segments.mapM (segmentText t) := by
  induction segments with
  | nil => rfl
  | cons segment rest ih =>
    cases segment with
    | text text => rw [List.mapM_cons, List.mapM_cons, ih h, segmentText, segmentText]
    | var name =>
      obtain ⟨first, others⟩ := List.forall_mem_cons.1 h
      rw [List.mapM_cons, List.mapM_cons, ih others, segmentText, segmentText,
        resolve_congr first]

mutual

/-- An expression has the same value, or the same error, in scopes that agree on its variables. -/
theorem eval_congr : ∀ {e : Expr}, s.AgreesWith t e.variableNames → e.eval s = e.eval t
  | .literal v, _ => by rw [eval, eval]
  | .var name, h => by
    rw [eval, eval]
    exact resolve_congr (h name List.mem_cons_self)
  | .template segments, h => by
    rw [variableNames] at h
    rw [eval, eval, segments_congr h]
  | .list items, h => by
    rw [variableNames] at h
    rw [eval, eval, evalItems_congr h]
  | .map entries, h => by
    rw [variableNames] at h
    rw [eval, eval, evalEntries_congr h]

theorem evalItems_congr : ∀ {es : List Expr}, s.AgreesWith t (itemVariableNames es) →
    evalItems s es = evalItems t es
  | [], _ => by rw [evalItems, evalItems]
  | e :: es, h => by
    rw [itemVariableNames, Scope.agreesWith_append] at h
    rw [evalItems, evalItems, eval_congr h.1, evalItems_congr h.2]

theorem evalEntries_congr : ∀ {es : List (String × Expr)},
    s.AgreesWith t (entryVariableNames es) → evalEntries s es = evalEntries t es
  | [], _ => by rw [evalEntries, evalEntries]
  | (k, e) :: es, h => by
    rw [entryVariableNames, Scope.agreesWith_append] at h
    rw [evalEntries, evalEntries, eval_congr h.1, evalEntries_congr h.2]

end

theorem stopsAtUnbound_resolve (name : String) : s.StopsAtUnbound [name] (resolve s name) := by
  intro err
  cases value : s name <;> simp [resolve, Scope.firstUnbound?, value, eq_comm]

theorem stopsAtUnbound_segments (segments : List Segment) :
    s.StopsAtUnbound (segments.filterMap Segment.reads?) (segments.mapM (segmentText s)) := by
  induction segments with
  | nil => exact .ok []
  | cons segment rest ih =>
    rw [List.mapM_cons]
    cases segment with
    | text text => exact ih.map (text :: ·)
    | var name =>
      have first := (stopsAtUnbound_resolve (s := s) name).map Value.render
      exact first.bind fun text => ih.map (text :: ·)

mutual

/-- An expression fails just if one of its variables has no value, and at the first such one. -/
theorem stopsAtUnbound_eval : ∀ e : Expr, s.StopsAtUnbound e.variableNames (e.eval s)
  | .literal v => by
    rw [eval, variableNames]
    exact .ok v
  | .var name => by
    rw [eval, variableNames]
    exact stopsAtUnbound_resolve name
  | .template segments => by
    rw [eval, variableNames]
    exact (stopsAtUnbound_segments segments).map fun parts => Value.string (String.join parts)
  | .list items => by
    rw [eval, variableNames]
    exact (stopsAtUnbound_evalItems items).map Value.list
  | .map entries => by
    rw [eval, variableNames]
    exact (stopsAtUnbound_evalEntries entries).map Value.map

theorem stopsAtUnbound_evalItems : ∀ es : List Expr,
    s.StopsAtUnbound (itemVariableNames es) (evalItems s es)
  | [] => by
    rw [evalItems, itemVariableNames]
    exact .ok []
  | e :: es => by
    rw [evalItems, itemVariableNames]
    exact (stopsAtUnbound_eval e).bind fun v => (stopsAtUnbound_evalItems es).map (v :: ·)

theorem stopsAtUnbound_evalEntries : ∀ es : List (String × Expr),
    s.StopsAtUnbound (entryVariableNames es) (evalEntries s es)
  | [] => by
    rw [evalEntries, entryVariableNames]
    exact .ok []
  | (k, e) :: es => by
    rw [evalEntries, entryVariableNames]
    exact (stopsAtUnbound_eval e).bind fun v => (stopsAtUnbound_evalEntries es).map ((k, v) :: ·)

end

end Expr

/-! ## Conditions -/

theorem Operand.resolve_congr {operand : Operand}
    (h : ∀ name, operand.reads? = some name → s name = t name) :
    operand.resolve s = operand.resolve t := by
  cases operand with
  | literal v => rfl
  | var name => rw [resolve, resolve, h name rfl]

theorem Operand.unbound_of_resolve {operand : Operand} (h : operand.resolve s = .error err) :
    ∃ name, operand.reads? = some name ∧ s name = none ∧ err = .unboundInCondition name := by
  cases operand with
  | literal v => cases h
  | var name =>
    refine ⟨name, rfl, ?_⟩
    cases value : s name with
    | some v => simp [resolve, value] at h
    | none => simpa [resolve, value, eq_comm] using h

namespace Formula

/-- A formula holds in both of two scopes that agree on its variables, or fails in both. -/
theorem eval_congr {f : Formula} (h : s.AgreesWith t f.variableNames) : f.eval s = f.eval t := by
  induction f with
  | literal b => rfl
  | truthy name => rw [eval, eval, h name List.mem_cons_self]
  | compare left operator negated right =>
    have both : ∀ operand ∈ [left, right], operand.resolve s = operand.resolve t :=
      fun operand mem => Operand.resolve_congr fun name reads =>
        h name (List.mem_filterMap.2 ⟨operand, mem, reads⟩)
    rw [eval, eval, both left (by simp), both right (by simp)]
  | and a b iha ihb | or a b iha ihb =>
    rw [variableNames, Scope.agreesWith_append] at h
    rw [eval, eval, iha h.1, ihb h.2]
  | not a ih => rw [eval, eval, ih h]

/-- A formula fails only because of a variable that it mentions. -/
theorem unbound_of_eval {f : Formula} (h : f.eval s = .error err) :
    ∃ name ∈ f.variableNames, s name = none ∧ err = .unboundInCondition name := by
  induction f with
  | literal b => cases h
  | truthy name => cases h
  | compare left operator negated right =>
    have reason : ∀ operand ∈ [left, right], operand.resolve s = .error err →
        ∃ name ∈ (compare left operator negated right).variableNames,
          s name = none ∧ err = .unboundInCondition name := by
      intro operand mem failed
      obtain ⟨name, reads, unbound, rfl⟩ := Operand.unbound_of_resolve failed
      exact ⟨name, List.mem_filterMap.2 ⟨operand, mem, reads⟩, unbound, rfl⟩
    rw [eval, bind_eq_error] at h
    obtain first | ⟨a, -, h⟩ := h
    · exact reason left (by simp) first
    · obtain second | ⟨b, -, h⟩ := bind_eq_error.1 h
      · exact reason right (by simp) second
      · cases h
  | and a b iha ihb | or a b iha ihb =>
    simp only [variableNames, List.mem_append, or_and_right, exists_or]
    rw [eval, bind_eq_error] at h
    obtain first | ⟨holds, -, h⟩ := h
    · exact .inl (iha first)
    -- The right side is asked only if the left side leaves the matter open.
    · cases holds <;> first | exact .inr (ihb h) | cases h
  | not a ih =>
    rw [eval, bind_eq_error] at h
    obtain first | ⟨holds, -, h⟩ := h
    · exact ih first
    · cases h

end Formula

theorem Condition.eval_congr {c : Condition} (h : s.AgreesWith t c.variableNames) :
    c.eval s = c.eval t :=
  Formula.eval_congr h

/-! ## Event patterns -/

namespace Pattern

variable {p : Pattern} {e : Event}

theorem admits_congr {l : List (String × Constraint)}
    (h : s.AgreesWith t ((l.map Prod.snd).filterMap Constraint.reads?)) :
    p.admits e s l = p.admits e t l := by
  induction l with
  | nil => rfl
  | cons entry rest ih =>
    obtain ⟨k, c⟩ := entry
    cases c with
    | literal v => rw [admits, admits, ih h]
    | var name =>
      obtain ⟨first, others⟩ := List.forall_mem_cons.1 h
      rw [admits, admits, ih others, first]

/-- A pattern tests an event alike in scopes that agree on its variables. -/
theorem match?_congr (h : s.AgreesWith t p.variableNames) : p.match? e s = p.match? e t := by
  rw [match?, match?, admits_congr h]

theorem unbound_of_admits {l : List (String × Constraint)} (h : p.admits e s l = .error err) :
    ∃ name ∈ (l.map Prod.snd).filterMap Constraint.reads?,
      s name = none ∧ err = .unboundInPattern p.display name := by
  induction l with
  | nil => cases h
  | cons entry rest ih =>
    obtain ⟨k, c⟩ := entry
    cases c with
    | literal v =>
      rw [admits] at h
      split at h
      · exact ih h
      · cases h
    | var name =>
      rw [admits] at h
      -- The variable is unbound, or it is bound and the error comes from a later parameter.
      cases value : s name with
      | none =>
        rw [value] at h
        exact ⟨name, List.mem_cons_self, value, (Except.error.inj h).symm⟩
      | some v =>
        rw [value] at h
        dsimp only at h
        split at h
        · obtain ⟨other, mem, reason⟩ := ih h
          exact ⟨other, List.mem_cons_of_mem _ mem, reason⟩
        · cases h

/-- A test fails only because of a variable of the pattern. -/
theorem unbound_of_match? (h : p.match? e s = .error err) :
    ∃ name ∈ p.variableNames, s name = none ∧ err = .unboundInPattern p.display name := by
  unfold match? at h
  split at h
  · cases h
  · obtain admitted | ⟨b, -, h⟩ := bind_eq_error.1 h
    · exact unbound_of_admits admitted
    · cases h

end Pattern

/-! ## The lists are complete -/

/-- Whatever is evaluated says the same in scopes that agree on the listed variables, errors
included. An expression fails just if a listed variable has no value, and names the first such one;
a condition or a pattern fails only if a listed variable has no value, and names such a one. -/
theorem listed_variables_decide :
    (∀ (e : Expr) (s t : Scope), s.AgreesWith t e.variableNames → e.eval s = e.eval t) ∧
    (∀ (c : Condition) (s t : Scope), s.AgreesWith t c.variableNames → c.eval s = c.eval t) ∧
    (∀ (p : Pattern) (s t : Scope), s.AgreesWith t p.variableNames →
      ∀ e : Event, p.match? e s = p.match? e t) ∧
    (∀ (e : Expr) (s : Scope),
      ((∃ err, e.eval s = .error err) ↔ ∃ name ∈ e.variableNames, s name = none) ∧
      ∀ err, e.eval s = .error err ↔
        ∃ name, s.firstUnbound? e.variableNames = some name ∧ err = .unbound name) ∧
    (∀ (c : Condition) (s : Scope) (err : FlowError), c.eval s = .error err →
      ∃ name ∈ c.variableNames, s name = none ∧ err = .unboundInCondition name) ∧
    (∀ (p : Pattern) (s : Scope) (e : Event) (err : FlowError), p.match? e s = .error err →
      ∃ name ∈ p.variableNames, s name = none ∧ err = .unboundInPattern p.display name) := by
  refine ⟨fun e s t => Expr.eval_congr, fun c s t => Condition.eval_congr,
    fun p s t h e => Pattern.match?_congr h, fun e s => ?_,
    fun c s err => Formula.unbound_of_eval, fun p s e err => Pattern.unbound_of_match?⟩
  have stops : s.StopsAtUnbound e.variableNames (e.eval s) := Expr.stopsAtUnbound_eval e
  exact ⟨stops.exists_error_iff, stops⟩

end Dialogue
