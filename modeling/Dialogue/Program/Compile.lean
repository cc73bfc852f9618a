import Dialogue.Library.Error
import Dialogue.Program
import Dialogue.Statement

/-!
# From statements to programs

Compiling a body gives, for every place at which it may begin, the instructions that stand there.
A choice becomes one `select`, followed by its segments: what to do when time is up, and for each
branch what follows its lead and what follows the failure of its lead. Between two segments stands
a jump to the end of the last one.

The branches of a choice are flattened first. A branch that leads with another choice stands for
one branch for each of that choice, with what follows the inner choice appended; a branch that
leads with a sequence begins with what is in it.

## Main definitions

* `Emit` — the code of a body, as a function of where it begins
* `Statement.part`, `Statement.parts` — the code of a statement and of the statements of a body
* `Statement.flatBranches` — the flattened branches of a choice
* `FlowDefinition.compile` — the program of a flow
-/

namespace Dialogue

/-- The code of a body, as a function of the number of its first instruction. -/
abbrev Emit := Nat → Except DefinitionError (List Instr)

/-- A statement as a part of a flattened branch: its code, and what it waits for if it may lead a
branch. -/
structure Part where
  /-- What the statement waits for. -/
  lead : Option Lead
  /-- What to do when that fails. -/
  onFailure : Option Emit
  /-- The code of the statement. -/
  code : Emit

namespace Emit

/-- No code. -/
def nothing : Emit := fun _ => .ok []

/-- A single instruction. -/
def one (i : Instr) : Emit := fun _ => .ok [i]

/-- One code after the other. -/
def andThen (a b : Emit) : Emit := fun pc => do
  let first ← a pc
  let second ← b (pc + first.length)
  return first ++ second

/-- Codes one after the other. -/
def all (codes : List Emit) : Emit := codes.foldr andThen nothing

/-- A body that is run again and again. -/
def loop (body : Emit) : Emit := fun pc => do
  let code ← body pc
  return code ++ [.jump pc]

/-- One of two bodies. Without a second body there is nothing to jump over. -/
def branch (condition : Condition) (thenBody : Emit) (elseBody : Option Emit) : Emit := fun pc => do
  let first ← thenBody (pc + 1)
  let afterFirst := pc + 1 + first.length
  match elseBody with
  | none => return .branch condition afterFirst :: first
  | some elseBody =>
    let second ← elseBody (afterFirst + 1)
    let stop := afterFirst + 1 + second.length
    return .branch condition (afterFirst + 1) :: first ++ .jump stop :: second

end Emit

/-- The segments after a `select`, each with room for a jump behind it, and the arms that lead into
them. -/
structure Segments where
  /-- The arms of the branches so far. -/
  arms : List Arm
  /-- The codes of the segments so far. -/
  codes : List (List Instr)

/-- Lays out the branches of a choice from a place on: for each the code behind its lead, then the
code for the failure of its lead. -/
def layBranches (flow : String) : Nat → List (List Part) → Except DefinitionError Segments
  | _, [] => .ok ⟨[], []⟩
  | pc, branch :: rest =>
    match branch with
    | [] => .error (.nonBlockingLead flow)
    | part :: tail =>
      match part.lead with
      | none => .error (.nonBlockingLead flow)
      | some lead => do
        let code ← Emit.all (tail.map Part.code) pc
        -- Each segment has room for the jump that leads out of it.
        let next := pc + code.length + 1
        match part.onFailure with
        | none =>
          let s ← layBranches flow next rest
          return ⟨⟨lead, pc, none⟩ :: s.arms, code :: s.codes⟩
        | some handler =>
          let failure ← handler next
          let s ← layBranches flow (next + failure.length + 1) rest
          return ⟨⟨lead, pc, some next⟩ :: s.arms, code :: failure :: s.codes⟩

/-- The segments of a choice with a jump between each two. -/
def joinSegments (stop : Nat) : List (List Instr) → List Instr
  | [] => []
  | [code] => code
  | code :: rest => code ++ .jump stop :: joinSegments stop rest

/-- How much room segments take, each with a jump behind it. -/
def extent : List (List Instr) → Nat
  | [] => 0
  | code :: rest => code.length + 1 + extent rest

/-- The code of a choice between flattened branches. -/
def Emit.select (flow : String) (branches : List (List Part)) (timeout : Option Duration)
    (onTimeout : Emit) : Emit := fun pc =>
  if branches.isEmpty then .error (.invalid flow .noBranches)
  else do
    let before : List (List Instr) ← match timeout with
      | none => pure []
      | some _ => do
        let code ← onTimeout (pc + 1)
        pure [code]
    let first := pc + 1 + extent before
    let s ← layBranches flow first branches
    -- The end lies where a jump behind the last segment would stand; there is none.
    let codes := before ++ s.codes
    let stop := pc + extent codes
    return .select ⟨s.arms, timeout, timeout.map fun _ => pc + 1⟩ :: joinSegments stop codes

/-- The timeout of a choice: more than nothing and no more than a year. -/
def checkTimeout (flow : String) (seconds : Float) : Except DefinitionError Duration :=
  if seconds.isNaN || seconds ≤ 0 then .error (.invalid flow (.timeoutNotPositive seconds))
  else if maxTimeout < seconds then .error (.invalid flow (.timeoutTooLong seconds))
  else
    match Duration.ofSeconds? seconds with
    | some d => .ok d
    | none => .error (.invalid flow (.timeoutTooLong seconds))

/-- The code of a choice with a timeout; something to do when time is up is a mistake where time
cannot be up. -/
def Emit.waitAny (flow : String) (branches : List (List Part)) (timeout : Option Float)
    (onTimeout : Option Emit) : Emit := fun pc => do
  let timeout ← match timeout with
    | some seconds => do
      let d ← checkTimeout flow seconds
      pure (some d)
    | none => pure none
  if timeout.isNone && onTimeout.isSome then
    throw (.invalid flow .timeoutBodyWithoutTimeout)
  Emit.select flow branches timeout (onTimeout.getD Emit.nothing) pc

/-- A statement that may lead a branch; by itself it is a choice with one branch. -/
def Part.leading (flow : String) (lead : Lead) (onFailure : Option Emit) : Part :=
  ⟨some lead, onFailure,
    Emit.select flow [[⟨some lead, onFailure, Emit.nothing⟩]] none Emit.nothing⟩

/-- A statement that may not lead a branch. -/
def Part.following (code : Emit) : Part := ⟨none, none, code⟩

namespace Statement

mutual

/-- The code of a statement, and what it waits for if it may lead a branch. -/
def part (flow : String) : Statement → Part
  | expect pattern => Part.leading flow (.event pattern) none
  | await target args onFailure =>
    Part.leading flow (.flow target args) (handlerCode flow onFailure)
  | execute action params result onFailure =>
    Part.leading flow (.action action params result) (handlerCode flow onFailure)
  | alternative branches =>
    Part.following (Emit.select flow (flatBranches flow branches) none Emit.nothing)
  | waitAny branches timeout onTimeout =>
    let body := Emit.all ((parts flow onTimeout).map Part.code)
    Part.following (Emit.waitAny flow (flatBranches flow branches) timeout
      (if onTimeout.isEmpty then none else some body))
  | send event params => Part.following (Emit.one (.send event params))
  | start target args isDetached => Part.following (Emit.one (.start target args isDetached))
  | assign var value isGlobal => Part.following (Emit.one (.assign var value isGlobal))
  | abort reason => Part.following (Emit.one (.abort reason))
  | sequence body => Part.following (Emit.all ((parts flow body).map Part.code))
  | loop body =>
    Part.following
      (if suspendsIn body then Emit.loop (Emit.all ((parts flow body).map Part.code))
        else fun _ => .error (.nonBlockingLoop flow))
  | branch condition thenBody elseBody =>
    let second := Emit.all ((parts flow elseBody).map Part.code)
    Part.following (Emit.branch condition (Emit.all ((parts flow thenBody).map Part.code))
      (if elseBody.isEmpty then none else some second))

/-- The statements of a body as parts. -/
def parts (flow : String) : List Statement → List Part
  | [] => []
  | s :: rest => part flow s :: parts flow rest

/-- The code of a handler, if there is one. -/
def handlerCode (flow : String) : Option (List Statement) → Option Emit
  | none => none
  | some body => some (Emit.all ((parts flow body).map Part.code))

/-- A branch as flattened branches. -/
def flatBranch (flow : String) : List Statement → List (List Part)
  | [] => [[]]
  | alternative inner :: rest => (flatBranches flow inner).map (· ++ parts flow rest)
  | sequence body :: rest =>
    if body.isEmpty then [part flow (sequence body) :: parts flow rest]
    else (flatBranch flow body).map (· ++ parts flow rest)
  | s :: rest => [part flow s :: parts flow rest]

/-- The flattened branches of a choice. -/
def flatBranches (flow : String) : List (List Statement) → List (List Part)
  | [] => []
  | b :: rest => flatBranch flow b ++ flatBranches flow rest

end

/-- The code of a body. -/
def code (flow : String) (body : List Statement) : Emit :=
  Emit.all ((parts flow body).map Part.code)

end Statement

/-- The program of a flow: the code of its body, and the end. -/
def FlowDefinition.compile (d : FlowDefinition) : Except DefinitionError Program := do
  let code ← Statement.code d.name d.body 0
  return ⟨(code ++ [Instr.finish]).toArray⟩

end Dialogue
