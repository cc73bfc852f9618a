import Dialogue.Proofs.Program.ControlFlow
import Dialogue.Proofs.Session.Stack

/-!
# Activations are recursion

An activation keeps the instances that have to run on a stack. What it does is what the recursive
reading says: an instance runs its instructions in order; whoever it starts runs before it goes on;
at a `select` all arms are armed from left to right, the instance is suspended, and those that it
awaits run in the order of the arms; an instance that comes to the end of its body is completed, and
one that meets an error is ended. Whoever has ended on the way is passed over.

## Main definitions

* `Cascade.Plays`, `Cascade.PlaysAll` — instances are run recursively

## Main results

* `Cascade.StandsAt.leadsOn` — an instance goes on where control leads
* `Cascade.Plays.proceeds` — the stack does what the recursion does
* `Cascade.Proceeds.exists_playsAll` — the recursion does what the stack does
* `Session.activation_recursive` — the activations of a run are recursion, unless the budget is used
  up
-/

namespace Dialogue

/-- An instruction after which its instance goes on by itself. -/
def Instr.IsPlain : Instr → Prop
  | send .. | assign .. | branch .. | jump _ => True
  | select _ | start .. | abort _ | finish => False

namespace Cascade

/-! ## The recursion -/

/-- An instance runs, and an instruction is the next one. There is nothing behind the last
instruction, so beyond it is the end of the body. -/
structure StandsAt (c : Cascade) (i : Instance) (instr : Instr) : Prop where
  live : c.instances.get? i.id = some i
  running : i.phase = .running
  next : (i.flow.program.get? i.pc).getD .finish = instr

mutual

/-- An instance is run until it is suspended or has ended, and so are those that it starts. It is
told how many instructions that takes. -/
inductive Plays : InstanceId → Cascade → Nat → Cascade → Prop
  /-- Whoever has ended or is suspended is passed over. -/
  | skip {id c} (idle : c.IsIdle id) : Plays id c 0 c
  /-- After most instructions the instance goes on. -/
  | act {i c instr c₁ n c'} (stands : c.StandsAt i instr) (plain : instr.IsPlain)
      (done : c.execute i instr = (c₁, .ok [])) (more : Plays i.id c₁ n c') :
      Plays i.id c (n + 1) c'
  /-- Whoever is started runs before the instance goes on at the next instruction. -/
  | start {i c flow args params isDetached child c₁ n c₂ m c'}
      (stands : c.StandsAt i (.start flow args isDetached))
      (evaluated : Expr.evalArguments (c.scope i) args = .ok params)
      (begun : (c.goto i.id (i.pc + 1)).spawn flow params (some i.id) isDetached =
        some (child, c₁))
      (first : Plays child c₁ n c₂) (more : Plays i.id c₂ m c') : Plays i.id c (n + m + 1) c'
  /-- All arms are armed from left to right, the instance is suspended, and those that it awaits run
  in the order of the arms. -/
  | select {i c s deadline c₁ arms n c'} (stands : c.StandsAt i (.select s))
      (due : s.timeout.map c.clock.add? = deadline.map some)
      (armed : c.armAll i s.arms = (c₁, .ok arms))
      (children : PlaysAll (armedChildren arms) (c₁.suspended i arms deadline) n c') :
      Plays i.id c (n + 1) c'
  /-- At the end of its body the instance is completed. -/
  | finish {i c} (stands : c.StandsAt i .finish) : Plays i.id c 1 (c.complete i.id)
  /-- At an error the instance is ended. -/
  | fail {i c instr d e} (stands : c.StandsAt i instr)
      (failed : c.execute i instr = (d, .error e)) : Plays i.id c 1 (d.terminate i.id e true)

/-- Instances are run one after the other. -/
inductive PlaysAll : List InstanceId → Cascade → Nat → Cascade → Prop
  | nil (c) : PlaysAll [] c 0 c
  | cons {id ids c n c₁ m c'} (first : Plays id c n c₁) (rest : PlaysAll ids c₁ m c') :
      PlaysAll (id :: ids) c (n + m) c'

end

/-! ## The stack does what the recursion does -/

variable {c c₁ c' d : Cascade} {i : Instance} {id k : InstanceId} {n m : Nat}
  {ids stack stack' stack'' : List InstanceId}

theorem isIdle_suspended (c : Cascade) (i : Instance) (arms : List Armed)
    (deadline : Option Instant) : (c.suspended i arms deadline).IsIdle i.id := by
  intro j hj running
  unfold suspended at hj
  split at hj
  all_goals
    rw [change, Table.get?_modify, if_pos rfl] at hj
    obtain ⟨j₀, -, rfl⟩ := Option.map_eq_some_iff.1 hj
    cases running

theorem execute_select {s : Select} {deadline : Option Instant} {arms : List Armed}
    (due : s.timeout.map c.clock.add? = deadline.map some)
    (armed : c.armAll i s.arms = (c₁, .ok arms)) :
    c.execute i (.select s) = (c₁.suspended i arms deadline, .ok (armedChildren arms)) := by
  rw [execute]
  cases timed : s.timeout with
  | none =>
    obtain rfl : none = deadline := by simpa [timed, eq_comm] using due
    exact suspend_of_ok armed none
  | some after =>
    rw [timed, Option.map_some] at due
    obtain ⟨t, rfl, ht⟩ := Option.map_eq_some_iff.1 due.symm
    simp only [← ht]
    exact suspend_of_ok armed (some t)

theorem StandsAt.step_eq {instr : Instr} {children : List InstanceId} (h : c.StandsAt i instr)
    (done : c.execute i instr = (c', .ok children)) : c.step i = (c', children) := by
  rw [step, h.next, done]

theorem StandsAt.step_eq_terminate {instr : Instr} {e : FlowError} (h : c.StandsAt i instr)
    (failed : c.execute i instr = (d, .error e)) :
    c.step i = (d.terminate i.id e true, []) := by
  rw [step, h.next, failed]

theorem execute_start {flow : String} {args : Table String Expr} {params : Params}
    {isDetached : Bool} {child : InstanceId}
    (evaluated : Expr.evalArguments (c.scope i) args = .ok params)
    (begun : (c.goto i.id (i.pc + 1)).spawn flow params (some i.id) isDetached =
      some (child, c')) : c.execute i (.start flow args isDetached) = (c', .ok [child]) := by
  simp only [execute, evaluated, begun]

theorem get?_goto (hi : c.instances.get? id = some i) (pc : Nat) :
    (c.goto id pc).instances.get? id = some { i with pc } := by
  rw [goto, change, Table.get?_modify, if_pos rfl, hi, Option.map_some]

/-- An instruction after which its instance goes on changes at most its variables, and moves it to
where control leads. -/
theorem exists_goto {instr : Instr} {children : List InstanceId}
    (hi : c.instances.get? i.id = some i) (plain : instr.IsPlain)
    (done : c.execute i instr = (c₁, .ok children)) : children = [] ∧
      ∃ (d : Cascade) (j : Instance) (pc : Nat),
        c₁ = d.goto i.id pc ∧ d.instances.get? i.id = some j ∧ j.phase = i.phase ∧
          j.flow = i.flow ∧ pc ∈ instr.next i.pc := by
  cases carriesOut_execute done with
  | send | share => exact ⟨rfl, _, i, _, rfl, hi, rfl, rfl, List.mem_singleton_self _⟩
  | @bind var _ v =>
    have assigned : (c.change i.id fun i => { i with locals := i.locals.insert var v
        }).instances.get? i.id = some { i with locals := i.locals.insert var v } := by
      rw [change_eq hi, Table.get?_insert_self]
    exact ⟨rfl, _, _, _, rfl, assigned, rfl, rfl, List.mem_singleton_self _⟩
  | @branch _ _ holds =>
    refine ⟨rfl, c, i, _, rfl, hi, rfl, rfl, ?_⟩
    cases holds <;> simp [Instr.next]
  | jump => exact ⟨rfl, c, i, _, rfl, hi, rfl, rfl, by simp [Instr.next]⟩
  | suspend | start | finish => exact plain.elim

/-- An instance that goes on by itself goes on where control leads in its program. -/
theorem StandsAt.leadsOn {instr : Instr} (h : c.StandsAt i instr) (plain : instr.IsPlain)
    (done : c.execute i instr = (c₁, .ok [])) : ∃ i', c₁.instances.get? i.id = some i' ∧
      i'.phase = .running ∧ i'.flow = i.flow ∧ i.flow.program.LeadsOn i.pc i'.pc := by
  have here : i.flow.program.get? i.pc = some instr := by
    have next := h.next
    cases found : i.flow.program.get? i.pc with
    | none =>
      rw [found] at next
      cases next
      exact plain.elim
    | some instr' => rw [← next, found, Option.getD_some]
  obtain ⟨-, d, j, pc, rfl, hj, phase, flow, on⟩ := exists_goto h.live plain done
  exact ⟨_, get?_goto hj pc, phase.trans h.running, flow, instr, here, on⟩

/-- An instruction is the first of those that are left. -/
theorem StandsAt.proceeds {instr : Instr} {children : List InstanceId} (h : c.StandsAt i instr)
    (stepped : c.step i = (c₁, children))
    (more : c₁.toSession.Coherent → Proceeds (children ++ i.id :: stack) c₁ n stack' c')
    (hc : c.toSession.Coherent) : Proceeds (i.id :: stack) c (n + 1) stack' c' := by
  have coherent := coherent_step hc h.live h.running
  rw [stepped] at coherent
  have rest := more coherent
  refine .step h.live h.running ?_
  rwa [stepped]

mutual

/-- What an instance does recursively is done while it is worked off from the top of a stack. -/
theorem Plays.proceeds : ∀ {id : InstanceId} {c : Cascade} {n : Nat} {c' : Cascade},
    Plays id c n c' → c.toSession.Coherent → ∀ stack, Proceeds (id :: stack) c n stack c'
  | _, c, _, _, .skip idle, _, stack => .skip idle (.refl stack c)
  | _, _, _, _, .act stands plain done more, hc, stack =>
    stands.proceeds (stands.step_eq done) (fun hc₁ => more.proceeds hc₁ stack) hc
  | _, _, _, _, .start (i := i) stands evaluated begun first more, hc, stack => by
    refine stands.proceeds (stands.step_eq (execute_start evaluated begun)) (fun hc₁ => ?_) hc
    -- The instance stays below the one that it has started, and comes up again after it.
    have child := first.proceeds hc₁ (i.id :: stack)
    exact child.trans (more.proceeds (child.coherent hc₁) stack)
  | _, _, _, _, .select (i := i) (n := n) stands due armed children, hc, stack => by
    have stepped := stands.step_eq (execute_select due armed)
    have begun := begun_step hc stands.live stands.running
    rw [stepped] at begun
    refine stands.proceeds stepped (fun hc₁ => ?_) hc
    have others := children.proceeds hc₁ (i.id :: stack)
    -- It is suspended, so it does not run after those that it awaits.
    have idle : IsIdle _ i.id := others.isIdle hc₁ begun (isIdle_suspended _ _ _ _)
    exact others.trans (.skip idle (.refl stack _))
  | _, c, _, _, .finish stands, hc, stack => by
    have awake := Instance.wait?_of_running stands.running
    exact stands.proceeds (stands.step_eq rfl)
      (fun _ => .of_gone (get?_complete_self hc.sound stands.live awake) stack) hc
  | _, _, _, _, .fail stands failed, hc, stack => by
    have changes := (execute_error hc.sound stands.live stands.running failed).changes
    exact stands.proceeds (stands.step_eq_terminate failed)
      (fun _ => .of_gone (get?_terminate_self (Changes.sound changes hc.sound) _ _ true) stack) hc

theorem PlaysAll.proceeds : ∀ {ids : List InstanceId} {c : Cascade} {n : Nat} {c' : Cascade},
    PlaysAll ids c n c' → c.toSession.Coherent → ∀ stack, Proceeds (ids ++ stack) c n stack c'
  | _, _, _, _, .nil c, _, stack => .refl stack c
  | _ :: ids, _, _, _, .cons first rest, hc, stack => by
    have one := first.proceeds hc (ids ++ stack)
    exact one.trans (rest.proceeds (one.coherent hc) stack)

end

/-! ## The recursion does what the stack does -/

/-- Whoever does not run has nothing to do. -/
theorem Plays.of_isIdle (h : Plays id c n c') (idle : c.IsIdle id) : n = 0 ∧ c' = c := by
  have absurd_stands {i : Instance} {instr : Instr} (stands : c.StandsAt i instr)
      (same : i.id = id) : False := idle i (same ▸ stands.live) stands.running
  cases h with
  | skip => exact ⟨rfl, rfl⟩
  | act stands => exact (absurd_stands stands rfl).elim
  | start stands => exact (absurd_stands stands rfl).elim
  | select stands => exact (absurd_stands stands rfl).elim
  | finish stands => exact (absurd_stands stands rfl).elim
  | fail stands => exact (absurd_stands stands rfl).elim

/-- An instance makes a step, those that have begun with it run, and it goes on: that is the
recursion. -/
theorem Plays.of_step (hc : c.toSession.Coherent) (hi : c.instances.get? i.id = some i)
    (hr : i.phase = .running) (children : PlaysAll (c.step i).2 (c.step i).1 n d)
    (more : Plays i.id d m c') : Plays i.id c (n + m + 1) c' := by
  have hc₁ := coherent_step hc hi hr
  -- If the instance does not run after the step, it has nothing to do after the others.
  have still (idle : (c.step i).1.IsIdle i.id) : m = 0 ∧ c' = d :=
    more.of_isIdle ((children.proceeds hc₁ []).isIdle hc₁ (begun_step hc hi hr) idle)
  generalize next : (i.flow.program.get? i.pc).getD .finish = instr
  have stands : c.StandsAt i instr := ⟨hi, hr, next⟩
  cases executed : c.execute i instr with
  | mk c₁ result =>
    cases result with
    | error e =>
      rw [stands.step_eq_terminate executed] at children still
      cases children
      have sound := Changes.sound (execute_error hc.sound hi hr executed).changes hc.sound
      obtain ⟨rfl, rfl⟩ := still (isIdle_of_gone (get?_terminate_self sound i.id e true))
      exact .fail stands executed
    | ok ids =>
      rw [stands.step_eq executed] at children still
      have act (plain : instr.IsPlain) : Plays i.id c (n + m + 1) c' := by
        obtain ⟨rfl, -⟩ := exists_goto hi plain executed
        cases children
        rw [Nat.zero_add]
        exact .act stands plain executed more
      cases carriesOut_execute executed with
      | suspend due armed =>
        obtain ⟨rfl, rfl⟩ := still (isIdle_suspended _ _ _ _)
        exact .select stands due armed children
      | start evaluated spawned =>
        cases children with
        | cons first rest =>
          cases rest
          exact .start stands evaluated spawned first more
      | finish =>
        cases children
        have awake := Instance.wait?_of_running hr
        obtain ⟨rfl, rfl⟩ := still (isIdle_of_gone (get?_complete_self hc.sound hi awake))
        exact .finish stands
      | send | share | bind | branch | jump => exact act trivial

theorem PlaysAll.exists_of_append {ids' : List InstanceId} (h : PlaysAll (ids ++ ids') c n c') :
    ∃ m k d, n = m + k ∧ PlaysAll ids c m d ∧ PlaysAll ids' d k c' := by
  induction ids generalizing c n with
  | nil => exact ⟨0, n, c, (Nat.zero_add n).symm, .nil c, h⟩
  | cons id ids ih =>
    cases h with
    | @cons _ _ _ n _ _ _ first rest =>
      obtain ⟨m, k, d, rfl, left, right⟩ := ih rest
      exact ⟨n + m, k, d, (Nat.add_assoc n m k).symm, .cons first left, right⟩

/-- The top of a stack that is worked off is run recursively, and then what is below it. -/
theorem Proceeds.exists_playsAll (h : Proceeds (ids ++ stack) c n [] c')
    (hc : c.toSession.Coherent) :
    ∃ m k d, n = m + k ∧ PlaysAll ids c m d ∧ Proceeds stack d k [] c' := by
  generalize whole : ids ++ stack = top at h
  generalize none_left : [] = bottom at h
  -- By induction on how the stack is worked off, where its upper part changes from step to step.
  induction h generalizing ids with
  | refl top c =>
    subst none_left
    obtain ⟨rfl, rfl⟩ := List.append_eq_nil_iff.1 whole
    exact ⟨0, 0, c, rfl, .nil c, .refl [] c⟩
  | @skip id top c n bottom c' idle more ih =>
    cases ids with
    | nil =>
      obtain rfl : stack = id :: top := whole
      subst none_left
      exact ⟨0, n, c, (Nat.zero_add n).symm, .nil c, .skip idle more⟩
    | cons first rest =>
      obtain ⟨rfl, same⟩ := List.cons.inj whole
      obtain ⟨m, k, d, rfl, plays, below⟩ := ih hc same none_left
      exact ⟨0 + m, k, d, by omega, .cons (.skip idle) plays, below⟩
  | @step i top c n bottom c' live running more ih =>
    cases ids with
    | nil =>
      obtain rfl : stack = i.id :: top := whole
      subst none_left
      exact ⟨0, n + 1, c, (Nat.zero_add _).symm, .nil c, .step live running more⟩
    | cons first rest =>
      obtain ⟨rfl, rfl⟩ := List.cons.inj whole
      -- After the step those that have begun stand on top of the instance and the others.
      have top : ((c.step i).2 ++ i.id :: rest) ++ stack =
          (c.step i).2 ++ i.id :: (rest ++ stack) := by simp
      obtain ⟨m, k, d, rfl, plays, below⟩ := ih (coherent_step hc live running) top none_left
      obtain ⟨m₁, m₂, d₁, rfl, children, others⟩ := plays.exists_of_append
      cases others with
      | @cons _ _ _ m₂ d₂ m₃ _ goes_on last =>
        refine ⟨m₁ + m₂ + 1 + m₃, k, d, by omega, ?_, below⟩
        exact .cons (.of_step hc live running children goes_on) last

/-- The recursion is determined by where it begins. -/
theorem Plays.unique (h : Plays id c n c') (h' : Plays id c m d) (hc : c.toSession.Coherent) :
    n = m ∧ c' = d := by
  have way := h.proceeds hc []
  have way' := h'.proceeds hc []
  have steps := way.length_stackSteps id m
  have state := way.runStack_eq id m
  rw [Nat.add_comm, way'.length_stackSteps id n] at steps
  rw [Nat.add_comm, way'.runStack_eq id n] at state
  simp at steps state
  exact ⟨steps.symm, state.symm⟩

/-! ## Activations -/

/-- An activation is recursion, and takes as many instructions, unless its budget is used up. -/
theorem plays_activate (hc : c.toSession.Coherent) (enough : c.activateExcess? id = none) :
    (c.activateSteps id).length ≤ c.limits.activationSteps ∧
      Plays id c (c.activateSteps id).length (c.activate id) := by
  have worked := proceeds_stackExcess? c.limits.activationSteps [id] hc.sound
  rw [← activateExcess?, enough] at worked
  obtain ⟨n, le, c', way⟩ := worked
  obtain ⟨budget, total⟩ := Nat.exists_eq_add_of_le le
  have state : c.activate id = c' := by
    rw [activate, total, way.runStack_eq, runStack_nil]
  have count : (c.activateSteps id).length = n := by
    rw [activateSteps, total, way.length_stackSteps, stackSteps_nil, List.length_nil, Nat.add_zero]
  rw [state, count]
  have alone : Proceeds ([id] ++ []) c n [] c' := way
  obtain ⟨m, k, d, rfl, plays, below⟩ := alone.exists_playsAll hc
  cases plays with
  | cons first rest =>
    cases rest
    cases below
    exact ⟨le, first⟩

/-- The budget is used up unless the recursion comes to its end within it. -/
theorem activateExcess?_eq_none_iff (hc : c.toSession.Coherent) (id : InstanceId) :
    c.activateExcess? id = none ↔ ∃ n ≤ c.limits.activationSteps, ∃ c', Plays id c n c' := by
  constructor
  · intro enough
    obtain ⟨le, plays⟩ := plays_activate hc enough
    exact ⟨_, le, _, plays⟩
  · rintro ⟨n, le, c', plays⟩
    obtain ⟨budget, total⟩ := Nat.exists_eq_add_of_le le
    rw [activateExcess?, total, (plays.proceeds hc []).stackExcess?_eq, stackExcess?_nil]

end Cascade

namespace Session

open Cascade (Plays)

/-- Whenever an instance is activated in a run, the activation comes to what the recursion comes to,
by as many instructions, unless its budget is used up; and that is so only if the recursion does not
come to an end within the budget. -/
theorem activation_recursive (name : String) (library : FlowLibrary) (limits : Limits)
    (context : Params) (os : List Operation) (o : Operation) (c : Cascade) (id : InstanceId)
    (activated : (c, id) ∈ ((new name library limits context).applyAll os).activations o) :
    (∃ i, c.instances.get? id = some i ∧ i.phase = .running) ∧
      (c.activateExcess? id = none →
        Plays id c (c.activateSteps id).length (c.activate id)) ∧
      (c.activateExcess? id = none ↔
        ∃ n ≤ c.limits.activationSteps, ∃ c', Plays id c n c') ∧
      ∀ n c' m d, Plays id c n c' → Plays id c m d → n = m ∧ c' = d := by
  have activates := activates_of_mem (pauses_applyAll name library limits context os) activated
  have coherent : c.toSession.Coherent := activates.coherent
  refine ⟨activates.runs, ?_, ?_, ?_⟩
  · intro enough
    exact (Cascade.plays_activate coherent enough).2
  · exact Cascade.activateExcess?_eq_none_iff coherent id
  · intro n c' m d plays plays'
    exact plays.unique plays' coherent

/-- A flow that starts one that goes on to wait, and then awaits one that fails and one that
ends. -/
def nestedFlows : List FlowDefinition :=
  [⟨"main", [], "", [.start "greeter" ∅ false,
      .send EventName.botSay (Table.ofList [("text", .literal (.string "main"))]),
      .waitAny [[.await "failing" ∅ none], [.await "ending" ∅ none]] none []]⟩,
    ⟨"greeter", [], "", [
      .send EventName.botSay (Table.ofList [("text", .literal (.string "hello"))]),
      .expect ⟨EventName.userSaid, ∅, ∅, false⟩]⟩,
    ⟨"failing", [], "", [.abort "no"]⟩,
    ⟨"ending", [], "", [
      .send EventName.botSay (Table.ofList [("text", .literal (.string "done"))])]⟩]

/-- By three instructions of the first flow, two of the one that it starts, and three of those that
it awaits. -/
theorem activation_recursive_nested :
    ∃ library, FlowLibrary.ofDefinitions Vocabulary.standard nestedFlows = .ok library ∧
      ∃ c, (c, ⟨1⟩) ∈ ((new "session" library .standard ∅).applyAll []).activations
          (.start ["main"]) ∧
        Plays ⟨1⟩ c 8 (c.activate ⟨1⟩) := by
  have run : (FlowLibrary.ofDefinitions Vocabulary.standard nestedFlows).toOption.any
      (fun library => (((new "session" library .standard ∅).applyAll []).activations
        (.start ["main"])).any fun a => a.2 = ⟨1⟩ && (a.1.activateExcess? a.2).isNone &&
          (a.1.activateSteps a.2).length = 8) = true := by decide +kernel
  obtain ⟨library, loaded, run⟩ := exists_of_toOption_any run
  obtain ⟨⟨c, id⟩, activated, found⟩ := List.any_eq_true.1 run
  simp only [Bool.and_eq_true, decide_eq_true_eq, Option.isNone_iff_eq_none] at found
  obtain ⟨⟨rfl, enough⟩, count⟩ := found
  obtain ⟨-, plays, -⟩ :=
    activation_recursive "session" library .standard ∅ [] (.start ["main"]) c ⟨1⟩ activated
  refine ⟨library, loaded, c, activated, ?_⟩
  rw [← count]
  exact plays enough

end Session

end Dialogue
