import Dialogue.Condition
import Dialogue.Duration
import Dialogue.Pattern

/-!
# Programs

A program is the body of a flow as a list of instructions, so that the place of a running flow is
one number. A flow is suspended at a single kind of instruction, which waits for the first of
several leads.

## Main definitions

* `Lead`, `Arm`, `Select` — what a suspended flow waits for, and where it goes on
* `Instr`, `Program`
* `Program.listing` — the text of a program
-/

namespace Dialogue

/-- What an arm waits for. -/
inductive Lead where
  /-- An event. -/
  | event (pattern : Pattern)
  /-- The end of a flow that is started for it. -/
  | flow (name : String) (args : Table String Expr)
  /-- The completion of an action that is called for it. -/
  | action (name : String) (params : Table String Expr) (result : Option String)

/-- One way in which a suspended flow may go on. -/
structure Arm where
  /-- What it waits for. -/
  lead : Lead
  /-- Where the flow goes on when it comes. -/
  resume : Nat
  /-- Where the flow goes on when it fails, if that is provided for. -/
  onFailure : Option Nat

/-- A place where a flow is suspended until one of its arms resolves or time is up. -/
structure Select where
  /-- The ways to go on. -/
  arms : List Arm
  /-- How long the flow waits. -/
  timeout : Option Duration
  /-- Where the flow goes on when time is up. -/
  onTimeout : Option Nat

/-- An instruction. -/
inductive Instr where
  | select (s : Select)
  | send (event : String) (params : Table String Expr)
  | start (flow : String) (args : Table String Expr) (isDetached : Bool)
  | assign (var : String) (value : Expr) (isGlobal : Bool)
  /-- Goes on if the condition holds, and elsewhere if not. -/
  | branch (condition : Condition) (otherwise : Nat)
  | jump (target : Nat)
  | abort (reason : String)
  /-- The body is finished. -/
  | finish

instance : Inhabited Instr := ⟨.finish⟩

/-- The instructions of a flow. -/
structure Program where
  /-- The instructions, which are numbered from zero. -/
  instrs : Array Instr

namespace Program

/-- The number of instructions. -/
def size (p : Program) : Nat := p.instrs.size

/-- The instruction at a place. -/
def get? (p : Program) (pc : Nat) : Option Instr := p.instrs[pc]?

end Program

/-! ## Listings -/

/-- A duration in seconds, as a number. -/
def Duration.toFloat (d : Duration) : Float :=
  Float.ofNat d.seconds + Float.ofNat d.subseconds / Float.ofNat Duration.nanosPerSecond

/-- The text of an arm. -/
def Arm.text (a : Arm) : String :=
  let lead := match a.lead with
    | .event pattern => pattern.display
    | .flow name _ => "await " ++ name
    | .action name _ _ => "execute " ++ name
  let failure := match a.onFailure with
    | some pc => " !" ++ toString pc
    | none => ""
  " [" ++ lead ++ " -> " ++ toString a.resume ++ failure ++ "]"

/-- The text of an instruction. -/
def Instr.text : Instr → String
  | select s =>
    let timeout := match s.timeout, s.onTimeout with
      | some d, some pc =>
        " [timeout " ++ Decimal.Layout.plain.float d.toFloat ++ "s -> " ++ toString pc ++ "]"
      | _, _ => ""
    "select" ++ String.join (s.arms.map Arm.text) ++ timeout
  | send event _ => "send " ++ event
  | start flow _ isDetached => "start " ++ flow ++ (if isDetached then " (detached)" else "")
  | assign var _ isGlobal => "assign " ++ (if isGlobal then "global " else "") ++ var
  | branch condition otherwise => "unless " ++ condition.source ++ " -> " ++ toString otherwise
  | jump target => "jump " ++ toString target
  | abort reason => "abort " ++ Text.quoted reason
  | finish => "end"

namespace Program

/-- The number of an instruction, in four columns at least. -/
def numberText (pc : Nat) : String :=
  let digits := toString pc
  String.ofList (List.replicate (4 - digits.length) ' ') ++ digits

/-- The text of a program, one instruction a line. -/
def listing (p : Program) : String :=
  String.join ((p.instrs.toList.zipIdx).map fun (i, pc) =>
    numberText pc ++ "  " ++ i.text ++ "\n")

end Program

end Dialogue
