import Dialogue.Proofs.Evaluation
import Dialogue.Session

/-!
# What an instruction can do

Here the functions that carry out an instruction are read once, case by case, with what has been
checked on the way. Whatever holds after any instruction is shown by going through these cases, and
not by reading the functions again.

## Main definitions

* `Cascade.StartsLead`, `Cascade.StartsLeads` — starting what arms wait for
* `Cascade.suspended` — the state in which an instance is suspended
* `Cascade.CarriesOut` — carrying out an instruction

## Main results

* `Cascade.startsLead_armLead`, `Cascade.startsLeads_armAll`, `Cascade.carriesOut_execute` — there
  are no other cases
-/

namespace Dialogue

/-- An instance comes to an instruction of its flow, or to the end of the body behind the last one. -/
theorem CompiledFlow.get?_or_finish (f : CompiledFlow) (pc : Nat) :
    f.program.get? pc = some ((f.program.get? pc).getD .finish) ∨
      (f.program.get? pc).getD .finish = .finish := by
  cases f.program.get? pc with
  | none => exact .inr rfl
  | some instr => exact .inl rfl

namespace Cascade

variable {c c' : Cascade} {i : Instance}

/-! ## Starting what a `select` waits for -/

/-- What becomes of the lead of an arm. -/
inductive StartsLead (c : Cascade) (i : Instance) : Lead → Cascade → Except FlowError Armed → Prop
  /-- For an event there is nothing to start. -/
  | event {pattern} : StartsLead c i (.event pattern) c (.ok .event)
  /-- An argument reads a variable that has no value. -/
  | unbound {lead e} (failed : e.IsUnbound) : StartsLead c i lead c (.error e)
  /-- The flow that is to be started does not exist. -/
  | missing {flow args values} (evaluated : Expr.evalArguments (c.scope i) args = .ok values)
      (missing : c.spawn flow values (some i.id) false = none) :
      StartsLead c i (.flow flow args) c (.error (.unknownFlow flow))
  /-- The arm waits for an instance that begins. -/
  | child {flow args values child c'} (evaluated : Expr.evalArguments (c.scope i) args = .ok values)
      (spawned : c.spawn flow values (some i.id) false = some (child, c')) :
      StartsLead c i (.flow flow args) c' (.ok (.child child))
  /-- The arm waits for a call that is made. -/
  | call {action params result values}
      (evaluated : Expr.evalArguments (c.scope i) params = .ok values) :
      StartsLead c i (.action action params result)
        (({ c with calls := (c.calls.start i.id action values).2 } : Cascade).notify
          (.actionDispatched (c.calls.start i.id action values).1 action i.id))
        (.ok (.call (c.calls.start i.id action values).1))

theorem startsLead_armLead {lead : Lead} {r : Except FlowError Armed}
    (h : c.armLead i lead = (c', r)) : c.StartsLead i lead c' r := by
  unfold armLead at h
  split at h
  · obtain ⟨rfl, rfl⟩ := Prod.mk.inj h
    exact .event
  · split at h
    · next failed =>
      obtain ⟨rfl, rfl⟩ := Prod.mk.inj h
      exact .unbound (Expr.isUnbound_of_evalArguments failed)
    · next evaluated =>
      split at h
      · next missing =>
        obtain ⟨rfl, rfl⟩ := Prod.mk.inj h
        exact .missing evaluated missing
      · next spawned =>
        obtain ⟨rfl, rfl⟩ := Prod.mk.inj h
        exact .child evaluated spawned
  · split at h
    · next failed =>
      obtain ⟨rfl, rfl⟩ := Prod.mk.inj h
      exact .unbound (Expr.isUnbound_of_evalArguments failed)
    · next evaluated =>
      obtain ⟨rfl, rfl⟩ := Prod.mk.inj h
      exact .call evaluated

/-- A lead that cannot be started has started nothing. -/
theorem armLead_error {lead : Lead} {e : FlowError} (h : c.armLead i lead = (c', .error e)) :
    c' = c := by
  cases startsLead_armLead h with
  | unbound | missing => rfl

/-- What becomes of the leads of arms, from left to right. -/
inductive StartsLeads (c : Cascade) (i : Instance) :
    List Arm → Cascade → Except FlowError (List Armed) → Prop
  | nil : StartsLeads c i [] c (.ok [])
  /-- The first lead cannot be started. -/
  | fail {arm rest e} (first : c.armLead i arm.lead = (c, .error e)) :
      StartsLeads c i (arm :: rest) c (.error e)
  /-- The first lead has been started, but one of the others cannot be. -/
  | stall {arm rest c₁ armed c' e} (first : c.armLead i arm.lead = (c₁, .ok armed))
      (others : c₁.armAll i rest = (c', .error e)) : StartsLeads c i (arm :: rest) c' (.error e)
  | cons {arm rest c₁ armed c' more} (first : c.armLead i arm.lead = (c₁, .ok armed))
      (others : c₁.armAll i rest = (c', .ok more)) :
      StartsLeads c i (arm :: rest) c' (.ok (armed :: more))

theorem startsLeads_armAll {arms : List Arm} {r : Except FlowError (List Armed)}
    (h : c.armAll i arms = (c', r)) : c.StartsLeads i arms c' r := by
  cases arms with
  | nil =>
    obtain ⟨rfl, rfl⟩ := Prod.mk.inj h
    exact .nil
  | cons arm rest =>
    unfold armAll at h
    split at h
    · next first =>
      obtain ⟨rfl, rfl⟩ := Prod.mk.inj h
      obtain rfl := armLead_error first
      exact .fail first
    · next first =>
      split at h <;> obtain ⟨rfl, rfl⟩ := Prod.mk.inj h
      · next others => exact .stall first others
      · next others => exact .cons first others

/-! ## Suspending an instance -/

/-- An instance is suspended, with a timer if there is a deadline. -/
def suspended (c : Cascade) (i : Instance) (arms : List Armed) (deadline : Option Instant) :
    Cascade :=
  match deadline with
  | none => c.change i.id fun i' => { i' with phase := .waiting ⟨i.pc, arms, none⟩ }
  | some t =>
    ({ c with timers := (c.timers.arm t i.id).2 } : Cascade).change i.id fun i' =>
      { i' with phase := .waiting ⟨i.pc, arms, some (c.timers.arm t i.id).1⟩ }

/-- With a deadline or without one, what is suspended is the instance alone. -/
theorem exists_suspended_eq (c : Cascade) (i : Instance) (arms : List Armed)
    (deadline : Option Instant) : ∃ (timer : Option TimerId) (timers : Timers),
      c.suspended i arms deadline = ({ c with timers } : Cascade).change i.id fun i' =>
        { i' with phase := .waiting ⟨i.pc, arms, timer⟩ } := by
  cases deadline with
  | none => exact ⟨none, c.timers, rfl⟩
  | some t => exact ⟨some (c.timers.arm t i.id).1, (c.timers.arm t i.id).2, rfl⟩

theorem suspend_of_ok {s : Select} {arms : List Armed} (armed : c.armAll i s.arms = (c', .ok arms))
    (deadline : Option Instant) :
    c.suspend i s deadline = (c'.suspended i arms deadline, .ok (armedChildren arms)) := by
  rw [suspend, armed]
  cases deadline <;> rfl

theorem suspend_of_error {s : Select} {e : FlowError} (failed : c.armAll i s.arms = (c', .error e))
    (deadline : Option Instant) : c.suspend i s deadline = (c', .error e) := by
  rw [suspend, failed]

/-! ## Instructions -/

/-- What becomes of an instruction of an instance. -/
inductive CarriesOut (c : Cascade) (i : Instance) :
    Instr → Cascade → Except FlowError (List InstanceId) → Prop
  /-- A variable is read that has no value. -/
  | unbound {instr e} (failed : e.IsUnbound) : CarriesOut c i instr c (.error e)
  /-- The deadline of a `select` is beyond all time. -/
  | beyond {s after} (timed : s.timeout = some after) (beyond : c.clock.add? after = none) :
      CarriesOut c i (.select s) c (.error (.timeoutOutOfRange after))
  /-- One of the leads of a `select` cannot be started. -/
  | stall {s c' e} (failed : c.armAll i s.arms = (c', .error e)) :
      CarriesOut c i (.select s) c' (.error e)
  /-- The instance is suspended, and those that it awaits have to run. -/
  | suspend {s deadline c₁ arms} (due : s.timeout.map c.clock.add? = deadline.map some)
      (armed : c.armAll i s.arms = (c₁, .ok arms)) :
      CarriesOut c i (.select s) (c₁.suspended i arms deadline) (.ok (armedChildren arms))
  | send {event params values} (evaluated : Expr.evalArguments (c.scope i) params = .ok values) :
      CarriesOut c i (.send event params)
        ((c.produce (some (i.id, i.depth)) (Event.new event values)).goto i.id (i.pc + 1)) (.ok [])
  /-- The flow that is to be started does not exist. The instance has moved on by then. -/
  | missing {flow args isDetached values}
      (evaluated : Expr.evalArguments (c.scope i) args = .ok values)
      (missing : (c.goto i.id (i.pc + 1)).spawn flow values (some i.id) isDetached = none) :
      CarriesOut c i (.start flow args isDetached) (c.goto i.id (i.pc + 1))
        (.error (.unknownFlow flow))
  | start {flow args isDetached values child c'}
      (evaluated : Expr.evalArguments (c.scope i) args = .ok values)
      (spawned : (c.goto i.id (i.pc + 1)).spawn flow values (some i.id) isDetached =
        some (child, c')) : CarriesOut c i (.start flow args isDetached) c' (.ok [child])
  /-- A shared variable is assigned. -/
  | share {var value v} (evaluated : value.eval (c.scope i) = .ok v) :
      CarriesOut c i (.assign var value true)
        (({ c with context := c.context.insert var v } : Cascade).goto i.id (i.pc + 1)) (.ok [])
  /-- A variable of the instance is assigned. -/
  | bind {var value v} (evaluated : value.eval (c.scope i) = .ok v) :
      CarriesOut c i (.assign var value false)
        ((c.change i.id fun i => { i with locals := i.locals.insert var v }).goto i.id (i.pc + 1))
        (.ok [])
  | branch {condition otherwise holds} (evaluated : condition.eval (c.scope i) = .ok holds) :
      CarriesOut c i (.branch condition otherwise)
        (c.goto i.id (if holds then i.pc + 1 else otherwise)) (.ok [])
  | jump {target} : CarriesOut c i (.jump target) (c.goto i.id target) (.ok [])
  | abort {reason} : CarriesOut c i (.abort reason) c (.error (.stopped reason))
  | finish : CarriesOut c i .finish (c.complete i.id) (.ok [])

theorem carriesOut_suspend {s : Select} {r : Except FlowError (List InstanceId)}
    (deadline : Option Instant) (due : s.timeout.map c.clock.add? = deadline.map some)
    (h : c.suspend i s deadline = (c', r)) : c.CarriesOut i (.select s) c' r := by
  cases armed : c.armAll i s.arms with
  | mk c₁ result =>
    cases result with
    | error e =>
      obtain ⟨rfl, rfl⟩ := Prod.mk.inj ((suspend_of_error armed deadline).symm.trans h)
      exact .stall armed
    | ok arms =>
      obtain ⟨rfl, rfl⟩ := Prod.mk.inj ((suspend_of_ok armed deadline).symm.trans h)
      exact .suspend due armed

theorem carriesOut_execute {instr : Instr} {r : Except FlowError (List InstanceId)}
    (h : c.execute i instr = (c', r)) : c.CarriesOut i instr c' r := by
  -- An instruction evaluates what it needs first. If that fails, nothing has happened yet.
  cases instr with
  | select s =>
    simp only [execute] at h
    split at h
    · next timeless => exact carriesOut_suspend none (by simp [timeless]) h
    · next timed =>
      split at h
      · next beyond =>
        obtain ⟨rfl, rfl⟩ := Prod.mk.inj h
        exact .beyond timed beyond
      · next t due => exact carriesOut_suspend (some t) (by simp [timed, due]) h
  | send event params =>
    simp only [execute] at h
    split at h <;> obtain ⟨rfl, rfl⟩ := Prod.mk.inj h
    · next failed => exact .unbound (Expr.isUnbound_of_evalArguments failed)
    · next evaluated => exact .send evaluated
  | start flow args isDetached =>
    simp only [execute] at h
    split at h
    · next failed =>
      obtain ⟨rfl, rfl⟩ := Prod.mk.inj h
      exact .unbound (Expr.isUnbound_of_evalArguments failed)
    · next evaluated =>
      split at h <;> obtain ⟨rfl, rfl⟩ := Prod.mk.inj h
      · next missing => exact .missing evaluated missing
      · next spawned => exact .start evaluated spawned
  | assign var value isGlobal =>
    simp only [execute] at h
    split at h <;> obtain ⟨rfl, rfl⟩ := Prod.mk.inj h
    · next failed => exact .unbound (Expr.isUnbound_of_eval failed)
    · next evaluated =>
      cases isGlobal with
      | true => exact .share evaluated
      | false => exact .bind evaluated
  | branch condition otherwise =>
    simp only [execute] at h
    split at h <;> obtain ⟨rfl, rfl⟩ := Prod.mk.inj h
    · next failed => exact .unbound (Condition.isUnbound_of_eval failed)
    · next evaluated => exact .branch evaluated
  | jump target =>
    obtain ⟨rfl, rfl⟩ := Prod.mk.inj h
    exact .jump
  | abort reason =>
    obtain ⟨rfl, rfl⟩ := Prod.mk.inj h
    exact .abort
  | finish =>
    obtain ⟨rfl, rfl⟩ := Prod.mk.inj h
    exact .finish

end Cascade

end Dialogue
