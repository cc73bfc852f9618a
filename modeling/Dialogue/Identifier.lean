import Dialogue.Table

/-!
# Identifiers

Flow instances, action calls and timers of a session are numbered in the order in which they come
into being, each kind by itself. A number is never used twice, so the order of identifiers is the
order of beginnings.

## Main definitions

* `Id`, `InstanceId`, `CallId`, `TimerId`
-/

namespace Dialogue

/-- What is numbered. -/
inductive Numbered where
  | flow
  | call
  | timer

/-- The number of a thing of some kind. -/
structure Id (kind : Numbered) where
  /-- The number; the first thing of a kind has number one. -/
  number : Nat
  deriving DecidableEq, Repr, Inhabited

/-- The identifier of a flow instance. -/
abbrev InstanceId := Id .flow

/-- The identifier of an action call. -/
abbrev CallId := Id .call

/-- The identifier of a timer. -/
abbrev TimerId := Id .timer

namespace Id

variable {kind : Numbered}

instance : Ord (Id kind) := ⟨fun a b => compare a.number b.number⟩

theorem compare_eq (a b : Id kind) : compare a b = compare a.number b.number := rfl

instance : Std.OrientedOrd (Id kind) := ⟨by
  intro a b
  simp only [compare_eq]
  exact Std.OrientedCmp.eq_swap⟩

instance : Std.TransOrd (Id kind) := ⟨by
  intro a b c hab hbc
  simp only [compare_eq] at hab hbc ⊢
  exact Std.TransCmp.isLE_trans hab hbc⟩

instance : Std.LawfulEqOrd (Id kind) where
  compare_self := by simp
  eq_of_compare {a b} h := by
    rw [compare_eq, Nat.compare_eq_eq] at h
    cases a
    cases b
    cases h
    rfl

/-- How an identifier is written. -/
def display : {kind : Numbered} → Id kind → String
  | .flow, i => "fi-" ++ toString i.number
  | .call, i => "call-" ++ toString i.number
  | .timer, i => "timer-" ++ toString i.number

end Id

end Dialogue
