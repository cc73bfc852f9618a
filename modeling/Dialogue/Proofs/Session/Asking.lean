import Dialogue.Proofs.Evaluation
import Dialogue.Session
import Mathlib.Tactic.SplitIfs

/-!
# What a suspended instance makes of an event

Whether an instance takes an event is decided by its timer or by one of its arms. Here both are read
once, case by case: what an arm can make of an event, and whose answer becomes that of the instance.

## Main definitions

* `Arm.Makes` — what an arm makes of an event

## Main results

* `Arm.makes_candidate?` — there are no other cases
* `exists_of_firstCandidate?` — what is made of an event is made by an arm
* `Instance.exists_of_candidate?` — by an arm of the instance, unless its time is up
-/

namespace Dialogue

variable {id : InstanceId} {e : Event} {scope : Scope} {r : Except FlowError (Option Candidate)}

/-- What an arm makes of an event. -/
inductive Arm.Makes (arm : Arm) (id : InstanceId) (index : Nat) (e : Event) (scope : Scope) :
    Armed → Except FlowError (Option Candidate) → Prop
  | ignores {a} : Makes arm id index e scope a (.ok none)
  /-- A pattern reads a variable that has no value. -/
  | unbound {err} (failed : err.IsUnbound) : Makes arm id index e scope .event (.error err)
  | claims {pattern m} (lead : arm.lead = .event pattern)
      (found : pattern.match? e scope = .ok (some m)) :
      Makes arm id index e scope .event
        (.ok (some (.claim ⟨id, index, arm, m.specificity, pattern.isExclusive, m.bindings⟩)))
  /-- The instance that the arm waits for has finished. -/
  | finished {child} (carried : e.carries "instance_id" child.number = true)
      (name : e.name = EventName.flowFinished) :
      Makes arm id index e scope (.child child) (.ok (some (.addressed (.arm index arm ∅))))
  | failed {child} (carried : e.carries "instance_id" child.number = true)
      (name : e.name = EventName.flowFailed) :
      Makes arm id index e scope (.child child)
        (.ok (some (.addressed (.failure index arm (e.renderedParameter "reason")))))
  /-- The call that the arm waits for has been answered. -/
  | answered {call action params result} (lead : arm.lead = .action action params result)
      (carried : e.carries "call_id" call.number = true)
      (name : e.name = EventName.actionFinished) :
      Makes arm id index e scope (.call call) (.ok (some (.addressed (.arm index arm
        (Table.ofList
          (result.map fun var => (var, (e.parameter? "result").getD .null)).toList)))))
  | refused {call action params result} (lead : arm.lead = .action action params result)
      (carried : e.carries "call_id" call.number = true)
      (name : e.name = EventName.actionFailed) :
      Makes arm id index e scope (.call call)
        (.ok (some (.addressed (.failure index arm (e.renderedParameter "error")))))

theorem Arm.makes_candidate? {arm : Arm} {a : Armed} {index : Nat}
    (h : arm.candidate? a id index e scope = r) : arm.Makes id index e scope a r := by
  unfold candidate? at h
  split at h
  · next pattern lead =>
    cases found : pattern.match? e scope with
    | error err =>
      rw [found] at h
      subst h
      exact .unbound (Pattern.isUnbound_of_match? found)
    | ok m? =>
      rw [found] at h
      subst h
      cases m? with
      | none => exact .ignores
      | some m => exact .claims lead found
  -- Whether the event tells of the child is asked first, and then of which end it tells.
  · split_ifs at h with silent finished failed <;> subst h
    · exact .ignores
    · exact .finished (by simpa using silent) (eq_of_beq finished)
    · exact .failed (by simpa using silent) (eq_of_beq failed)
    · exact .ignores
  · next lead =>
    split_ifs at h with silent finished failed <;> subst h
    · exact .ignores
    · exact .answered lead (by simpa using silent) (eq_of_beq finished)
    · exact .refused lead (by simpa using silent) (eq_of_beq failed)
    · exact .ignores
  · subst h
    exact .ignores

/-- What is made of an event is made by one of the arms. -/
theorem exists_of_firstCandidate? {arms : List (Arm × Armed)} {index : Nat}
    (h : firstCandidate? id e scope index arms = r) (some_answer : r ≠ .ok none) :
    ∃ (n : Nat) (arm : Arm) (a : Armed), arms[n]? = some (arm, a) ∧
      arm.candidate? a id (index + n) e scope = r := by
  induction arms generalizing index with
  | nil => exact absurd h.symm some_answer
  | cons first rest ih =>
    obtain ⟨arm, a⟩ := first
    unfold firstCandidate? at h
    split at h
    · next asked => exact ⟨0, arm, a, rfl, asked.trans h⟩
    · next asked => exact ⟨0, arm, a, rfl, asked.trans h⟩
    · obtain ⟨n, arm', a', hn, asked⟩ := ih h
      rw [Nat.add_assoc, Nat.add_comm 1 n] at asked
      exact ⟨n + 1, arm', a', hn, asked⟩

/-- Whatever an instance makes of an event, it is suspended. Either its time is up, or that is what
one of its arms makes of the event. -/
theorem Instance.exists_of_candidate? {i : Instance} (h : i.candidate? e scope = r)
    (some_answer : r ≠ .ok none) : ∃ w s, i.wait? = some w ∧ i.select? = some s ∧
      (w.timer.isSome ∧ r = .ok (some (.addressed (.timeout s.onTimeout))) ∨
        ∃ (n : Nat) (arm : Arm) (a : Armed), s.arms[n]? = some arm ∧ w.arms[n]? = some a ∧
          arm.candidate? a i.id n e scope = r) := by
  unfold candidate? at h
  split at h
  · next w s hw hsel =>
    refine ⟨w, s, hw, hsel, ?_⟩
    dsimp only at h
    split at h
    · next late =>
      obtain ⟨timer, armed, -⟩ := (Option.any_eq_true _ _).1 late
      exact .inl ⟨by simp [armed], h.symm⟩
    · obtain ⟨n, arm, a, hn, asked⟩ := exists_of_firstCandidate? h some_answer
      obtain ⟨harm, ha⟩ := List.getElem?_zip_eq_some.1 hn
      exact .inr ⟨n, arm, a, harm, ha, Nat.zero_add n ▸ asked⟩
  · exact absurd h.symm some_answer

end Dialogue
