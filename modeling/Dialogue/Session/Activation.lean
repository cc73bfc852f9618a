import Dialogue.Session.Lifecycle

/-!
# Activation

An activation runs an instance until it is suspended or has ended. The instances that it starts on
the way run before it goes on, so what is to be run forms a stack. All of them share one budget of
instructions.

## Main definitions

* `Cascade.execute` — the effect of an instruction
* `Cascade.step` — one step of an instance
* `Cascade.runStack`, `Cascade.activate`
-/

namespace Dialogue.Cascade

/-- Starts what an arm waits for. -/
def armLead (c : Cascade) (i : Instance) : Lead → Cascade × Except FlowError Armed
  | .event _ => (c, .ok .event)
  | .flow name args =>
    match Expr.evalArguments (c.scope i) args with
    | .error e => (c, .error e)
    | .ok args =>
      match c.spawn name args (some i.id) false with
      | none => (c, .error (.unknownFlow name))
      | some (child, c) => (c, .ok (.child child))
  | .action name params _ =>
    match Expr.evalArguments (c.scope i) params with
    | .error e => (c, .error e)
    | .ok params =>
      let (call, calls) := c.calls.start i.id name params
      (({ c with calls } : Cascade).notify (.actionDispatched call name i.id), .ok (.call call))

/-- Starts what the arms of a `select` wait for, from left to right, until one cannot be started. -/
def armAll (c : Cascade) (i : Instance) : List Arm → Cascade × Except FlowError (List Armed)
  | [] => (c, .ok [])
  | arm :: rest =>
    match c.armLead i arm.lead with
    | (c, .error e) => (c, .error e)
    | (c, .ok armed) =>
      match c.armAll i rest with
      | (c, .error e) => (c, .error e)
      | (c, .ok more) => (c, .ok (armed :: more))

/-- The instances among what arms wait for. -/
def armedChildren (arms : List Armed) : List InstanceId :=
  arms.filterMap fun
    | .child id => some id
    | _ => none

/-- Suspends an instance at a `select` with a deadline or without one. The instances that it waits
for have to run next. -/
def suspend (c : Cascade) (i : Instance) (s : Select) (deadline : Option Instant) :
    Cascade × Except FlowError (List InstanceId) :=
  match c.armAll i s.arms with
  | (c, .error e) => (c, .error e)
  | (c, .ok arms) =>
    let (timer, timers) := match deadline with
      | some t => let (id, timers) := c.timers.arm t i.id; (some id, timers)
      | none => (none, c.timers)
    let c := ({ c with timers } : Cascade).change i.id fun i' =>
      { i' with phase := .waiting ⟨i.pc, arms, timer⟩ }
    (c, .ok (armedChildren arms))

/-- Lets an instance go on elsewhere. -/
def goto (c : Cascade) (id : InstanceId) (pc : Nat) : Cascade :=
  c.change id fun i => { i with pc }

/-- The effect of an instruction on a running instance, and the instances that have to run before it
goes on. What happened before an error stands. -/
def execute (c : Cascade) (i : Instance) : Instr → Cascade × Except FlowError (List InstanceId)
  | .select s =>
    match s.timeout with
    | none => c.suspend i s none
    | some after =>
      match c.clock.add? after with
      | none => (c, .error (.timeoutOutOfRange after))
      | some deadline => c.suspend i s (some deadline)
  | .send event params =>
    match Expr.evalArguments (c.scope i) params with
    | .error e => (c, .error e)
    | .ok params =>
      ((c.produce (some (i.id, i.depth)) (Event.new event params)).goto i.id (i.pc + 1), .ok [])
  | .start flow args isDetached =>
    match Expr.evalArguments (c.scope i) args with
    | .error e => (c, .error e)
    | .ok args =>
      let c := c.goto i.id (i.pc + 1)
      match c.spawn flow args (some i.id) isDetached with
      | none => (c, .error (.unknownFlow flow))
      | some (child, c) => (c, .ok [child])
  | .assign var value isGlobal =>
    match value.eval (c.scope i) with
    | .error e => (c, .error e)
    | .ok v =>
      let c : Cascade :=
        if isGlobal then { c with context := c.context.insert var v }
        else c.change i.id fun i => { i with locals := i.locals.insert var v }
      (c.goto i.id (i.pc + 1), .ok [])
  | .branch condition otherwise =>
    match condition.eval (c.scope i) with
    | .error e => (c, .error e)
    | .ok holds => (c.goto i.id (if holds then i.pc + 1 else otherwise), .ok [])
  | .jump target => (c.goto i.id target, .ok [])
  | .abort reason => (c, .error (.stopped reason))
  | .finish => (c.complete i.id, .ok [])

/-- One step of a running instance, and the instances that have to run before its next one. -/
def step (c : Cascade) (i : Instance) : Cascade × List InstanceId :=
  -- There is nothing behind the last instruction, so running past it is the end of the body.
  match c.execute i ((i.flow.program.get? i.pc).getD .finish) with
  | (c, .ok children) => (c, children)
  | (c, .error e) => (c.terminate i.id e true, [])

/-- The first running instance of a stack, and what stands below it. -/
def firstRunning? (c : Cascade) : List InstanceId → Option (Instance × List InstanceId)
  | [] => none
  | id :: rest =>
    match c.instances.get? id with
    | some i => if i.isRunning then some (i, rest) else c.firstRunning? rest
    | none => c.firstRunning? rest

/-- Ends an activation that has used up its budget: the instance that was activated fails, and every
other one that is still running goes down with it. -/
def exhaust (c : Cascade) (root : InstanceId) (stack : List InstanceId) : Cascade :=
  let error := FlowError.stepLimit c.limits.activationSteps
  stack.foldl (fun c id =>
    match c.instances.get? id with
    | some i => if i.isWaiting then c else c.terminate id error false
    | none => c) (c.terminate root error true)

/-- Runs the instances of a stack with a budget of instructions, the top one first. -/
def runStack (root : InstanceId) : Nat → List InstanceId → Cascade → Cascade
  | budget, stack, c =>
    match c.firstRunning? stack with
    | none => c
    | some (i, rest) =>
      -- A budget that is used up is no error as long as nothing is left to run.
      match budget with
      | 0 => c.exhaust root (i.id :: rest)
      | budget + 1 =>
        let (c, children) := c.step i
        runStack root budget (children ++ i.id :: rest) c

/-- Runs an instance, and what it starts, until all of them are suspended or have ended. -/
def activate (c : Cascade) (id : InstanceId) : Cascade :=
  runStack id c.limits.activationSteps [id] c

end Dialogue.Cascade
