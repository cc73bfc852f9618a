import Dialogue.Session.Activation

/-!
# Delivery

An event is offered to every suspended instance. One that is addressed by the identifier of its
timer, of an instance or of a call that it waits for takes the event in any case. Those that wait
for events of this form compete: only the most specific patterns count, and if one of these is
exclusive, the oldest such instance alone takes the event. Instances whose patterns cannot be
evaluated are ended first, then those that take the event go on, the oldest first.

## Main definitions

* `Resolution`, `Claim`, `Candidate`
* `Instance.candidate?` — whether and how a suspended instance takes an event
* `winners` — the claims that succeed
* `Cascade.resume`, `Cascade.deliver`
-/

namespace Dialogue

/-- How a wait comes to its end. -/
inductive Resolution where
  /-- An arm got what it was waiting for. -/
  | arm (index : Nat) (arm : Arm) (bindings : Params)
  /-- What an arm was waiting for failed. -/
  | failure (index : Nat) (arm : Arm) (reason : String)
  /-- Time is up. -/
  | timeout (handler : Option Nat)

/-- An arm whose pattern matches the event. -/
structure Claim where
  /-- The instance. -/
  id : InstanceId
  /-- The number of the arm. -/
  index : Nat
  /-- The arm. -/
  arm : Arm
  /-- How specific the pattern is. -/
  specificity : Nat
  /-- Whether the event is wanted for the instance alone. -/
  isExclusive : Bool
  /-- What the event binds. -/
  bindings : Params

/-- What a suspended instance makes of an event. -/
inductive Candidate where
  /-- The event is addressed to it. -/
  | addressed (r : Resolution)
  /-- The event is of a form that it waits for. -/
  | claim (c : Claim)

/-- Whether a parameter of an event is a given number. -/
def Event.carries (e : Event) (key : String) (number : Nat) : Bool :=
  e.parameter? key == some (.ofNat number)

/-- The rendered parameter of an event, nothing if there is none. -/
def Event.renderedParameter (e : Event) (key : String) : String :=
  match e.parameter? key with
  | some v => v.render
  | none => ""

/-- What an arm makes of an event. -/
def Arm.candidate? (arm : Arm) (armed : Armed) (id : InstanceId) (index : Nat) (e : Event)
    (scope : Scope) : Except FlowError (Option Candidate) :=
  match armed, arm.lead with
  | .event, .event pattern => do
    let found ← pattern.match? e scope
    return found.map fun m =>
      .claim ⟨id, index, arm, m.specificity, pattern.isExclusive, m.bindings⟩
  | .child child, _ =>
    if !e.carries "instance_id" child.number then .ok none
    else if e.name == EventName.flowFinished then .ok (some (.addressed (.arm index arm ∅)))
    else if e.name == EventName.flowFailed then
      .ok (some (.addressed (.failure index arm (e.renderedParameter "reason"))))
    else .ok none
  | .call call, .action _ _ result =>
    if !e.carries "call_id" call.number then .ok none
    else if e.name == EventName.actionFinished then
      let bindings := Table.ofList
        (result.map fun var => (var, (e.parameter? "result").getD .null)).toList
      .ok (some (.addressed (.arm index arm bindings)))
    else if e.name == EventName.actionFailed then
      .ok (some (.addressed (.failure index arm (e.renderedParameter "error"))))
    else .ok none
  | _, _ => .ok none

/-- What the first arm that takes an event makes of it. -/
def firstCandidate? (id : InstanceId) (e : Event) (scope : Scope) :
    Nat → List (Arm × Armed) → Except FlowError (Option Candidate)
  | _, [] => .ok none
  | index, (arm, armed) :: rest =>
    match arm.candidate? armed id index e scope with
    | .error err => .error err
    | .ok (some c) => .ok (some c)
    | .ok none => firstCandidate? id e scope (index + 1) rest

/-- Whether and how a suspended instance takes an event. Its own timer comes before its arms. -/
def Instance.candidate? (i : Instance) (e : Event) (scope : Scope) :
    Except FlowError (Option Candidate) :=
  match i.wait?, i.select? with
  | some wait, some select =>
    let isTimeUp := wait.timer.any fun timer =>
      e.name == EventName.timeout && e.carries "timer_id" timer.number
    if isTimeUp then .ok (some (.addressed (.timeout select.onTimeout)))
    else firstCandidate? i.id e scope 0 (select.arms.zip wait.arms)
  | _, _ => .ok none

/-- The greatest specificity among claims. -/
def bestSpecificity (claims : List Claim) : Nat :=
  claims.foldr (fun c best => max c.specificity best) 0

/-- The claims that succeed, among claims in the order of their instances. -/
def winners (claims : List Claim) : List Claim :=
  let top := claims.filter fun c => c.specificity == bestSpecificity claims
  match top.find? Claim.isExclusive with
  | some c => [c]
  | none => top

namespace Cascade

/-- Gives up what an arm was waiting for. -/
def giveUp (c : Cascade) : Armed → Cascade
  | .event => c
  | .child id => c.terminate id (.stopped "another alternative resolved") false
  | .call id => { c with calls := c.calls.cancel id }

/-- Gives up what the arms of a wait were waiting for, from left to right, except for one. -/
def giveUpAll (c : Cascade) (kept : Option Nat) : Nat → List Armed → Cascade
  | _, [] => c
  | index, armed :: rest =>
    (if kept = some index then c else c.giveUp armed).giveUpAll kept (index + 1) rest

/-- Ends the wait of an instance: its timer is cancelled, and so is what its arms were waiting for,
except for the arm that is resolved. -/
def disarm (c : Cascade) (i : Instance) (kept : Option Nat) : Cascade :=
  match i.wait? with
  | none => c
  | some wait =>
    let c := c.change i.id fun i => { i with phase := .running }
    let timers := match wait.timer with
      | some timer => c.timers.cancel timer
      | none => c.timers
    ({ c with timers } : Cascade).giveUpAll kept 0 wait.arms

/-- Lets an instance go on at a place with new bindings. -/
def advance (c : Cascade) (id : InstanceId) (pc : Nat) (bindings : Params) : Cascade :=
  let bound (locals : Params) : Params :=
    bindings.entries.foldl (fun locals e => locals.insert e.1 e.2) locals
  (c.change id fun i => { i with locals := bound i.locals, pc, phase := .running }).activate id

/-- What an arm waits for, in a message about its failure. -/
def leadLabel : Lead → String
  | .flow name _ => "flow " ++ name
  | .action name _ _ => name
  | .event pattern => pattern.event

/-- Ends the wait of an instance. Bindings that conflict with a parameter end the instance before
anything else happens, and so does a failure or a timeout that nothing is provided for. -/
def resume (c : Cascade) (id : InstanceId) (r : Resolution) : Cascade :=
  match c.instances.get? id with
  | none => c
  | some i =>
    if !i.isWaiting then c
    else
      match r with
      | .arm index arm bindings =>
        -- The wait is still armed here, so that ending the instance gives up all that it waits for.
        match checkBindings i.locals bindings i.isParameter with
        | .error e => c.terminate id e true
        | .ok () => (c.disarm i (some index)).advance id arm.resume bindings
      | .failure index arm reason =>
        match arm.onFailure with
        | some handler => (c.disarm i (some index)).advance id handler ∅
        | none => c.terminate id (.actionFailed (leadLabel arm.lead) reason) true
      | .timeout handler =>
        let c := c.disarm i none
        match handler with
        | some handler => c.advance id handler ∅
        | none => c.terminate id .timeoutUnhandled true

/-- What the suspended instances make of an event, the oldest instance first. -/
def candidates (c : Cascade) (e : Event) :
    List (InstanceId × Except FlowError (Option Candidate)) :=
  (c.instances.values.filter Instance.isWaiting).map fun i => (i.id, i.candidate? e (c.scope i))

/-- Delivers an event. -/
def deliver (c : Cascade) (e : Event) : Cascade :=
  let candidates := c.candidates e
  let broken := candidates.filterMap fun
    | (id, .error err) => some (id, err)
    | _ => none
  let claims := candidates.filterMap fun
    | (_, .ok (some (.claim claim))) => some claim
    | _ => none
  let winning := winners claims
  let consumers := candidates.filterMap fun
    | (id, .ok (some (.addressed r))) => some (id, r)
    | (id, .ok (some (.claim claim))) =>
      if winning.any fun w => w.id = id then
        some (id, .arm claim.index claim.arm claim.bindings) else none
    | _ => none
  -- Who takes the event is settled by now. What follows may still end one of the takers before its
  -- turn has come, which is why `resume` looks at each of them again.
  let c := broken.foldl (fun c (id, err) => c.terminate id err true) c
  consumers.foldl (fun c (id, r) => c.resume id r) c

end Cascade

end Dialogue
