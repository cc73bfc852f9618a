import Dialogue.Proofs.Session.Activations
import Dialogue.Proofs.Session.Exhaustion

/-!
# The stack of an activation

An activation works off a stack of instances: the top one makes a step, whoever has begun with the
step is put on top of it, and whoever does not run is taken off. That takes a number of
instructions, so it comes to its end within the budget, or the budget is used up while somebody has
still to run.

An instance stays on the stack below those that it has started, also when it has been suspended or
has ended. It is taken off when it comes up again, since whoever does not run does not run again.

## Main definitions

* `Cascade.Proceeds` — a stack is worked off by a number of instructions
* `Cascade.activateExcess?` — what is left when an activation has used up its budget

## Main results

* `Cascade.proceeds_stackExcess?` — a stack is worked off, or the budget is used up
* `Cascade.Proceeds.runStack_eq`, `Cascade.Proceeds.length_stackSteps` — it is run as it is worked
  off, by as many steps
* `Cascade.Proceeds.isIdle` — whoever does not run does not run again
-/

namespace Dialogue.Cascade

/-! ## Working off a stack -/

/-- An instance does not run. -/
def IsIdle (c : Cascade) (id : InstanceId) : Prop :=
  ∀ i, c.instances.get? id = some i → i.phase ≠ .running

/-- What is left of a stack when its budget has been used up: the state by then, and those that have
not come to their end, the one that would run next first. -/
def stackExcess? : Nat → List InstanceId → Cascade → Option (Cascade × List InstanceId)
  | budget, stack, c =>
    match c.firstRunning? stack with
    | none => none
    | some (i, rest) =>
      match budget with
      | 0 => some (c, i.id :: rest)
      | budget + 1 => stackExcess? budget ((c.step i).2 ++ i.id :: rest) (c.step i).1

/-- What is left when an activation has used up its budget. -/
def activateExcess? (c : Cascade) (id : InstanceId) : Option (Cascade × List InstanceId) :=
  stackExcess? c.limits.activationSteps [id] c

/-- A stack is worked off by a number of instructions: the top one is taken off if it does not run,
and otherwise it makes a step, and whoever has begun with the step has to run first. -/
inductive Proceeds : List InstanceId → Cascade → Nat → List InstanceId → Cascade → Prop
  | refl (stack c) : Proceeds stack c 0 stack c
  | skip {id stack c n stack' c'} (idle : c.IsIdle id) (more : Proceeds stack c n stack' c') :
    Proceeds (id :: stack) c n stack' c'
  | step {i stack c n stack' c'} (live : c.instances.get? i.id = some i)
    (running : i.phase = .running)
    (more : Proceeds ((c.step i).2 ++ i.id :: stack) (c.step i).1 n stack' c') :
    Proceeds (i.id :: stack) c (n + 1) stack' c'

variable {c c₁ c' d : Cascade} {i : Instance} {id k root : InstanceId} {n m budget : Nat}
  {ids stack stack' stack'' : List InstanceId}

theorem Proceeds.trans (h : Proceeds stack c n stack' c') (h' : Proceeds stack' c' m stack'' d) :
    Proceeds stack c (n + m) stack'' d := by
  induction h with
  | refl => rwa [Nat.zero_add]
  | skip idle _ ih => exact .skip idle (ih h')
  | step live running _ ih =>
    rw [Nat.add_right_comm]
    exact .step live running (ih h')

/-- What holds at the beginning and is kept when the stack is worked off holds at the end. -/
theorem Proceeds.induct {P : List InstanceId → Cascade → Prop} (h : Proceeds stack c n stack' c')
    (start : P stack c) (skip : ∀ id stack c, c.IsIdle id → P (id :: stack) c → P stack c)
    (step : ∀ i stack c, c.instances.get? i.id = some i → i.phase = .running →
      P (i.id :: stack) c → P ((c.step i).2 ++ i.id :: stack) (c.step i).1) : P stack' c' := by
  induction h with
  | refl => exact start
  | skip idle _ ih => exact ih (skip _ _ _ idle start)
  | step live running _ ih => exact ih (step _ _ _ live running start)

theorem firstRunning?_of_isIdle (h : c.IsIdle id) :
    c.firstRunning? (id :: stack) = c.firstRunning? stack := by
  rw [firstRunning?]
  split
  · next i hi => rw [if_neg (by simpa [Instance.isRunning] using h i hi)]
  · rfl

theorem firstRunning?_of_running (hi : c.instances.get? i.id = some i) (hr : i.phase = .running) :
    c.firstRunning? (i.id :: stack) = some (i, stack) := by
  simp [firstRunning?, hi, Instance.isRunning, hr]

@[simp] theorem runStack_nil (root : InstanceId) (budget : Nat) (c : Cascade) :
    runStack root budget [] c = c := by
  cases budget <;> rfl

@[simp] theorem stackSteps_nil (root : InstanceId) (budget : Nat) (c : Cascade) :
    stackSteps root budget [] c = [] := by
  cases budget <;> rfl

theorem runStack_zero (hi : c.instances.get? i.id = some i) (hr : i.phase = .running)
    (root : InstanceId) (stack : List InstanceId) :
    runStack root 0 (i.id :: stack) c = c.exhaust root (i.id :: stack) := by
  rw [runStack, firstRunning?_of_running hi hr]

@[simp] theorem stackSteps_zero (root : InstanceId) (stack : List InstanceId) (c : Cascade) :
    stackSteps root 0 stack c = [] := by
  unfold stackSteps
  split <;> rfl

@[simp] theorem stackExcess?_nil (budget : Nat) (c : Cascade) :
    stackExcess? budget [] c = none := by
  cases budget <;> rfl

/-- The stack is run as it is worked off. -/
theorem Proceeds.runStack_eq (h : Proceeds stack c n stack' c') (root : InstanceId) (budget : Nat) :
    runStack root (n + budget) stack c = runStack root budget stack' c' := by
  induction h with
  | refl => rw [Nat.zero_add]
  | skip idle _ ih => rw [← ih, runStack, firstRunning?_of_isIdle idle, ← runStack]
  | step live running _ ih =>
    rw [← ih, Nat.add_right_comm, runStack, firstRunning?_of_running live running]

theorem Proceeds.length_stackSteps (h : Proceeds stack c n stack' c') (root : InstanceId)
    (budget : Nat) : (stackSteps root (n + budget) stack c).length =
      n + (stackSteps root budget stack' c').length := by
  induction h with
  | refl => rw [Nat.zero_add, Nat.zero_add]
  | skip idle _ ih => rw [← ih, stackSteps, firstRunning?_of_isIdle idle, ← stackSteps]
  | step live running _ ih =>
    rw [Nat.add_right_comm, stackSteps, firstRunning?_of_running live running, List.length_cons, ih,
      Nat.add_right_comm]

theorem Proceeds.stackExcess?_eq (h : Proceeds stack c n stack' c') (budget : Nat) :
    stackExcess? (n + budget) stack c = stackExcess? budget stack' c' := by
  induction h with
  | refl => rw [Nat.zero_add]
  | skip idle _ ih => rw [← ih, stackExcess?, firstRunning?_of_isIdle idle, ← stackExcess?]
  | step live running _ ih =>
    rw [← ih, Nat.add_right_comm, stackExcess?, firstRunning?_of_running live running]

theorem proceeds_of_firstRunning?_eq_none (h : c.firstRunning? stack = none) :
    Proceeds stack c 0 [] c := by
  induction stack with
  | nil => exact .refl [] c
  | cons id rest ih =>
    have idle : c.IsIdle id := by
      intro i hi running
      simp [firstRunning?, hi, Instance.isRunning, running] at h
    exact .skip idle (ih (by rwa [firstRunning?_of_isIdle idle] at h))

theorem proceeds_of_firstRunning? (hs : c.toSession.Sound)
    (h : c.firstRunning? stack = some (i, stack')) : c.instances.get? i.id = some i ∧
      i.phase = .running ∧ Proceeds stack c 0 (i.id :: stack') c := by
  induction stack with
  | nil => cases h
  | cons id rest ih =>
    by_cases idle : c.IsIdle id
    · rw [firstRunning?_of_isIdle idle] at h
      obtain ⟨hi, hr, more⟩ := ih h
      exact ⟨hi, hr, .skip idle more⟩
    · unfold IsIdle at idle
      push Not at idle
      obtain ⟨j, hj, running⟩ := idle
      obtain rfl := hs.id_eq hj
      rw [firstRunning?_of_running hj running] at h
      obtain ⟨rfl, rfl⟩ := Prod.mk.inj (Option.some.inj h)
      exact ⟨hj, running, .refl _ c⟩

/-- A stack is worked off within a budget, or the budget is used up while somebody has still to
run. -/
theorem proceeds_stackExcess? : ∀ (budget : Nat) (stack : List InstanceId) {c : Cascade},
    c.toSession.Sound →
    match stackExcess? budget stack c with
    | none => ∃ n ≤ budget, ∃ c', Proceeds stack c n [] c'
    | some (d, stack') => Proceeds stack c budget stack' d ∧
        ∃ i rest, stack' = i.id :: rest ∧ d.instances.get? i.id = some i ∧ i.phase = .running
  | budget, stack, c, hs => by
    unfold stackExcess?
    cases first : c.firstRunning? stack with
    | none => exact ⟨0, Nat.zero_le _, c, proceeds_of_firstRunning?_eq_none first⟩
    | some top =>
      obtain ⟨i, rest⟩ := top
      -- Whoever has been suspended or has ended meanwhile is skipped without a step.
      obtain ⟨hi, hr, skipped⟩ := proceeds_of_firstRunning? hs first
      cases budget with
      | zero => exact ⟨skipped, i, rest, rfl, hi, hr⟩
      | succ budget =>
        have more := proceeds_stackExcess? budget ((c.step i).2 ++ i.id :: rest)
          ((path_step hs hi hr).sound hs)
        dsimp only
        split at more
        · obtain ⟨n, le, c', way⟩ := more
          have whole := skipped.trans (.step hi hr way)
          exact ⟨0 + (n + 1), by omega, c', whole⟩
        · have whole := skipped.trans (.step hi hr more.1)
          rw [Nat.zero_add] at whole
          exact ⟨whole, more.2⟩

/-! ## Whoever does not run -/

theorem coherent_step (h : c.toSession.Coherent) (hi : c.instances.get? i.id = some i)
    (hr : i.phase = .running) : (c.step i).1.toSession.Coherent := by
  have path := (path_step h.sound hi hr).mono fun _ _ => Passes.change
  exact coherent_of_moves path.moves h

theorem Proceeds.coherent (h : Proceeds stack c n stack' c') (hc : c.toSession.Coherent) :
    c'.toSession.Coherent :=
  h.induct (P := fun _ c => c.toSession.Coherent) hc (fun _ _ _ _ hc => hc)
    fun _ _ _ live running hc => coherent_step hc live running

/-- Who does not run does not run again by the step of another one. -/
theorem IsIdle.step (h : c.IsIdle k) (begun : k.number ≤ c.created) (hc : c.toSession.Coherent)
    (hi : c.instances.get? i.id = some i) (hr : i.phase = .running) : (c.step i).1.IsIdle k := by
  -- All others may run before the step. After it only they do, and those that have begun with it.
  have calm : Calm (c.instances.keys.filter (· ≠ k)) c := by
    intro j j' hj running
    have other : j ≠ k := by
      rintro rfl
      exact h j' hj running
    simp [Table.mem_keys, hj, other]
  intro j hj running
  rcases List.mem_append.1 (calm_step hc.sound hc.linked hi hr calm k j hj running) with new | old
  · exact absurd begun (Nat.not_le.2 ((children_of_step hc.sound hi new).1 k new))
  · simp at old

theorem Proceeds.isIdle (h : Proceeds stack c n stack' c') (hc : c.toSession.Coherent)
    (begun : k.number ≤ c.created) (idle : c.IsIdle k) : c'.IsIdle k := by
  have kept : c'.toSession.Coherent ∧ k.number ≤ c'.created ∧ c'.IsIdle k := by
    refine h.induct (P := fun _ c => c.toSession.Coherent ∧ k.number ≤ c.created ∧ c.IsIdle k)
      ⟨hc, begun, idle⟩ (fun _ _ _ _ h => h) fun i stack c live running h => ?_
    obtain ⟨hc, begun, idle⟩ := h
    have later := (path_step hc.sound live running).mono fun _ _ => Passes.change
    exact ⟨coherent_step hc live running, Nat.le_trans begun later.passes_later.created,
      idle.step begun hc live running⟩
  exact kept.2.2

theorem isIdle_of_gone (gone : c.instances.get? id = none) : c.IsIdle id := by
  intro i hi
  rw [gone] at hi
  cases hi

/-- An instance that has ended is taken off. -/
theorem Proceeds.of_gone (gone : c.instances.get? id = none) (stack : List InstanceId) :
    Proceeds (id :: stack) c 0 stack c :=
  .skip (isIdle_of_gone gone) (.refl stack c)

/-- Whoever makes a step has begun before. -/
theorem begun_step (hc : c.toSession.Coherent) (hi : c.instances.get? i.id = some i)
    (hr : i.phase = .running) : i.id.number ≤ (c.step i).1.created := by
  have later := (path_step hc.sound hi hr).mono fun _ _ => Passes.change
  exact Nat.le_trans (hc.sound.instances _ _ hi).begun later.passes_later.created

end Dialogue.Cascade
