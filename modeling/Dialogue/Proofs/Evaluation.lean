import Dialogue.Instance
import Dialogue.Proofs.Table
import Dialogue.Proofs.Variables

/-!
# Why evaluation fails

Whatever a flow evaluates fails for one reason only: a variable has no value. The reason says where
it was read, in an expression, in a condition or in an event pattern. The named arguments of a call
keep their names when they are evaluated.

## Main definitions

* `FlowError.IsUnbound` — a variable has no value

## Main results

* `Expr.isUnbound_of_eval`, `Condition.isUnbound_of_eval`, `Pattern.isUnbound_of_match?`
* `Expr.keys_of_evalArguments` — evaluated arguments have the names of the arguments
-/

namespace Dialogue

/-- A variable has no value. -/
inductive FlowError.IsUnbound : FlowError → Prop
  | expression (name) : IsUnbound (.unbound name)
  | pattern (pattern name) : IsUnbound (.unboundInPattern pattern name)
  | condition (name) : IsUnbound (.unboundInCondition name)

variable {scope : Scope} {err : FlowError}

/-! ## Expressions -/

namespace Expr

theorem isUnbound_of_eval {e : Expr} (h : e.eval scope = .error err) : err.IsUnbound := by
  obtain ⟨name, -, rfl⟩ := (stopsAtUnbound_eval e err).1 h
  exact .expression name

theorem isUnbound_of_traverseList {l : List (String × Expr)}
    (h : Table.traverseList (fun _ e => e.eval scope) l = .error err) : err.IsUnbound := by
  induction l with
  | nil => cases h
  | cons e rest ih =>
    unfold Table.traverseList at h
    split at h
    · next first =>
      obtain rfl := Except.error.inj h
      exact isUnbound_of_eval first
    · split at h
      · next others =>
        obtain rfl := Except.error.inj h
        exact ih others
      · cases h

theorem isUnbound_of_evalArguments {args : Table String Expr}
    (h : evalArguments scope args = .error err) : err.IsUnbound := by
  unfold evalArguments Table.traverse at h
  split at h
  · next values =>
    obtain rfl := Except.error.inj h
    exact isUnbound_of_traverseList values
  · cases h

/-- Evaluated arguments have the names of the arguments. -/
theorem keys_of_evalArguments {args : Table String Expr} {values : Params}
    (h : evalArguments scope args = .ok values) : values.keys = args.keys := by
  unfold evalArguments Table.traverse at h
  split at h
  · cases h
  · next m names _ =>
    obtain rfl := Except.ok.inj h
    exact names

end Expr

/-! ## Conditions and event patterns -/

theorem Condition.isUnbound_of_eval {condition : Condition}
    (h : condition.eval scope = .error err) : err.IsUnbound := by
  obtain ⟨name, -, -, rfl⟩ := Formula.unbound_of_eval h
  exact .condition name

theorem Pattern.isUnbound_of_match? {p : Pattern} {e : Event}
    (h : p.match? e scope = .error err) : err.IsUnbound := by
  obtain ⟨name, -, -, rfl⟩ := unbound_of_match? h
  exact .pattern _ name

end Dialogue
