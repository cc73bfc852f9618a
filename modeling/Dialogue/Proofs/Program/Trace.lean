import Dialogue.Program.Compile

/-!
# What a flow does, as seen from outside

A flow can be run in two ways: as the list of its statements, by their structure, and as its
program, by the number of the next instruction. Both are machines of one kind. A move of such a
machine is silent, does something, asks its surroundings something, or is the last one. What a
machine does depends on the replies alone, so its trace under a list of replies can be compared
with the trace of another machine under the same replies.

## Main definitions

* `Observation`, `Reply` — what a flow shows, and what it is told
* `Move`, `Trace` — machines, and what is seen of them under a list of replies
* `Agrees` — that two machines show the same
* `Program.move` — the moves of a program
* `Statement.openBranches`, `Statement.move` — the moves of a list of statements

## Main results

* `Trace.unique` — a machine has one trace at most under given replies
-/

namespace Dialogue

/-- What a flow shows of itself. -/
inductive Observation where
  /-- It sends an event. -/
  | sent (event : String) (params : Table String Expr)
  /-- It starts another flow. -/
  | started (flow : String) (args : Table String Expr) (isDetached : Bool)
  /-- It gives a variable a value. -/
  | assigned (var : String) (value : Expr) (isGlobal : Bool)
  /-- It wants to know whether a condition holds. -/
  | tested (condition : Condition)
  /-- It is suspended, for the first of several leads or until time is up. -/
  | suspended (leads : List Lead) (timeout : Option Duration)
  /-- It has been stopped. -/
  | aborted (reason : String)
  /-- It has come to the end of its body. -/
  | finished

/-- What a flow is told. -/
inductive Reply where
  /-- Whether a condition holds. -/
  | holds (b : Bool)
  /-- An arm got what it was waiting for. -/
  | wins (arm : Nat)
  /-- What an arm was waiting for failed. -/
  | fails (arm : Nat)
  /-- Time is up. -/
  | timesOut

/-- The next move of a machine with states `σ`. -/
inductive Move (σ : Type) where
  /-- A move that is not seen. -/
  | silent (next : σ)
  /-- A move that is seen and needs no reply. -/
  | act (o : Observation) (next : σ)
  /-- A move that needs a reply. Not every reply fits. -/
  | ask (o : Observation) (next : Reply → Option σ)
  /-- The last move. -/
  | stop (o : Observation)

/-- What is seen of a machine from a state on, under a list of replies. A trace ends with the last
move of the machine, or with a question that there is no fitting reply to. -/
inductive Trace {σ : Type} (move : σ → Move σ) : σ → List Reply → List Observation → Prop
  | silent {s s' rs os} (h : move s = .silent s') (rest : Trace move s' rs os) : Trace move s rs os
  | act {s s' rs o os} (h : move s = .act o s') (rest : Trace move s' rs os) :
    Trace move s rs (o :: os)
  | reply {s s' r rs o next os} (h : move s = .ask o next) (fits : next r = some s')
    (rest : Trace move s' rs os) : Trace move s (r :: rs) (o :: os)
  | refuse {s r rs o next} (h : move s = .ask o next) (fits : next r = none) :
    Trace move s (r :: rs) [o]
  | wait {s o next} (h : move s = .ask o next) : Trace move s [] [o]
  | stop {s rs o} (h : move s = .stop o) : Trace move s rs [o]

/-- A machine has one trace at most under given replies. -/
theorem Trace.unique {σ : Type} {move : σ → Move σ} {s : σ} {rs : List Reply}
    {os os' : List Observation} (t : Trace move s rs os) (t' : Trace move s rs os') : os = os' := by
  -- The move at a state decides which rule applies, so both traces begin by the same one.
  induction t generalizing os' with
  | silent h _ ih =>
    cases t' with
    | silent h' rest =>
      obtain rfl : _ = _ := by simpa [h] using h'
      exact ih rest
    | _ => simp_all
  | act h _ ih =>
    cases t' with
    | act h' rest =>
      obtain ⟨rfl, rfl⟩ : _ = _ ∧ _ = _ := by simpa [h] using h'
      rw [ih rest]
    | _ => simp_all
  | reply h fits _ ih =>
    cases t' with
    | reply h' fits' rest =>
      obtain ⟨rfl, rfl⟩ : _ = _ ∧ _ = _ := by simpa [h] using h'
      obtain rfl := Option.some.inj (fits.symm.trans fits')
      rw [ih rest]
    | _ => simp_all
  | refuse h fits => cases t' <;> simp_all
  | wait h => cases t' <;> simp_all
  | stop h => cases t' <;> simp_all

/-! ## Machines that show the same -/

section Agrees

variable {σ τ : Type} {move : σ → Move σ} {move' : τ → Move τ} {s : σ} {t : τ} {rs : List Reply}
  {o : Observation}

/-- Two machines have the same trace under given replies. -/
def Agrees (move : σ → Move σ) (move' : τ → Move τ) (s : σ) (t : τ) (rs : List Reply) : Prop :=
  ∃ os, Trace move s rs os ∧ Trace move' t rs os

theorem Agrees.silent_left {s' : σ} (h : move s = .silent s') (ag : Agrees move move' s' t rs) :
    Agrees move move' s t rs := by
  obtain ⟨os, hs, ht⟩ := ag
  exact ⟨os, .silent h hs, ht⟩

theorem Agrees.silent_right {t' : τ} (h : move' t = .silent t') (ag : Agrees move move' s t' rs) :
    Agrees move move' s t rs := by
  obtain ⟨os, hs, ht⟩ := ag
  exact ⟨os, hs, .silent h ht⟩

theorem Agrees.act {s' : σ} {t' : τ} (hs : move s = .act o s') (ht : move' t = .act o t')
    (ag : Agrees move move' s' t' rs) : Agrees move move' s t rs := by
  obtain ⟨os, hs', ht'⟩ := ag
  exact ⟨o :: os, .act hs hs', .act ht ht'⟩

theorem Agrees.stop (hs : move s = .stop o) (ht : move' t = .stop o) : Agrees move move' s t rs :=
  ⟨[o], .stop hs, .stop ht⟩

/-- Machines that ask the same agree if the same replies fit, and if they agree after each of
them. -/
theorem Agrees.ask {R : σ → τ → Prop} {next : Reply → Option σ} {next' : Reply → Option τ}
    (hs : move s = .ask o next) (ht : move' t = .ask o next')
    (fits : ∀ r, Option.Rel R (next r) (next' r))
    (after : ∀ r rs', rs = r :: rs' → ∀ s' t', R s' t' → Agrees move move' s' t' rs') :
    Agrees move move' s t rs := by
  cases rs with
  | nil => exact ⟨[o], .wait hs, .wait ht⟩
  | cons r rs =>
    -- A reply fits both machines or none of them.
    have hr := fits r
    cases hn : next r with
    | none =>
      cases hn' : next' r with
      | none => exact ⟨[o], .refuse hs hn, .refuse ht hn'⟩
      | some t' => simp [hn, hn'] at hr
    | some s' =>
      cases hn' : next' r with
      | none => simp [hn, hn'] at hr
      | some t' =>
        rw [hn, hn'] at hr
        cases hr with
        | some hr =>
          obtain ⟨os, hs', ht'⟩ := after r rs rfl s' t' hr
          exact ⟨o :: os, .reply hs hn hs', .reply ht hn' ht'⟩

end Agrees

/-! ## The moves of a program -/

/-- Where a suspended flow goes on, if a reply fits. -/
def Select.target? (s : Select) : Reply → Option Nat
  | .wins arm => s.arms[arm]?.map Arm.resume
  | .fails arm => s.arms[arm]?.bind Arm.onFailure
  | .timesOut => s.onTimeout
  | .holds _ => none

/-- The move of an instruction at a place. -/
def Instr.move (pc : Nat) : Instr → Move Nat
  | select s => .ask (.suspended (s.arms.map Arm.lead) s.timeout) s.target?
  | send event params => .act (.sent event params) (pc + 1)
  | start flow args isDetached => .act (.started flow args isDetached) (pc + 1)
  | assign var value isGlobal => .act (.assigned var value isGlobal) (pc + 1)
  | branch condition otherwise => .ask (.tested condition) fun
    | .holds b => some (if b then pc + 1 else otherwise)
    | _ => none
  | jump target => .silent target
  | abort reason => .stop (.aborted reason)
  | finish => .stop .finished

/-- The move of a program at a place. -/
def Program.move (p : Program) (pc : Nat) : Move Nat := ((p.get? pc).getD .finish).move pc

theorem Program.move_eq {p : Program} {pc : Nat} {i : Instr} (h : p.get? pc = some i) :
    p.move pc = i.move pc := by
  rw [Program.move, h, Option.getD_some]

/-! ## The moves of a list of statements

A list of statements is run from its head. What is left to do is again a list of statements, so
the list is the whole state. -/

namespace Statement

/-- What a branch of a choice offers. -/
structure Offer where
  /-- What it waits for. -/
  lead : Lead
  /-- What follows. -/
  tail : List Statement
  /-- What is done instead if the lead fails, if that is provided for. -/
  onFailure : Option (List Statement)

/-- What a branch offers that leads with something to wait for. -/
def offer? : List Statement → Option Offer
  | expect pattern :: rest => some ⟨.event pattern, rest, none⟩
  | await target args onFailure :: rest => some ⟨.flow target args, rest, onFailure⟩
  | execute action params result onFailure :: rest =>
    some ⟨.action action params result, rest, onFailure⟩
  | _ => none

mutual

/-- The branches that a branch stands for. If it leads with another choice, these are the branches
of that choice, each with what follows the choice; if it leads with a sequence, it leads with what
is in it. -/
def openBranch : List Statement → List (List Statement)
  | [] => [[]]
  | alternative inner :: rest => (openBranches inner).map (· ++ rest)
  | sequence body :: rest =>
    if body.isEmpty then [sequence body :: rest] else (openBranch body).map (· ++ rest)
  | s :: rest => [s :: rest]

/-- The branches that the branches of a choice stand for. -/
def openBranches : List (List Statement) → List (List Statement)
  | [] => []
  | b :: rest => openBranch b ++ openBranches rest

end

/-- Where a choice goes on, if a reply fits. -/
def goesOn? (offers : List Offer) (timeout : Option Duration) (onTimeout rest : List Statement) :
    Reply → Option (List Statement)
  | .wins arm => offers[arm]?.map fun o => o.tail ++ rest
  | .fails arm => (offers[arm]?.bind Offer.onFailure).map (· ++ rest)
  | .timesOut => timeout.map fun _ => onTimeout ++ rest
  | .holds _ => none

/-- The move of a choice: it waits for the first of its offers. -/
def choose (offers : List Offer) (timeout : Option Duration) (onTimeout rest : List Statement) :
    Move (List Statement) :=
  .ask (.suspended (offers.map Offer.lead) timeout) (goesOn? offers timeout onTimeout rest)

/-- The offers of a choice, after its branches have been opened. -/
def offers (branches : List (List Statement)) : List Offer :=
  (openBranches branches).filterMap offer?

/-- The next move of a list of statements. -/
def move : List Statement → Move (List Statement)
  | [] => .stop .finished
  | send event params :: rest => .act (.sent event params) rest
  | start flow args isDetached :: rest => .act (.started flow args isDetached) rest
  | assign var value isGlobal :: rest => .act (.assigned var value isGlobal) rest
  | abort reason :: _ => .stop (.aborted reason)
  | sequence body :: rest => .silent (body ++ rest)
  | loop body :: rest => .silent (body ++ loop body :: rest)
  | branch condition thenBody elseBody :: rest => .ask (.tested condition) fun
    | .holds b => some ((if b then thenBody else elseBody) ++ rest)
    | _ => none
  | expect pattern :: rest => choose [⟨.event pattern, [], none⟩] none [] rest
  | await target args onFailure :: rest =>
    choose [⟨.flow target args, [], onFailure⟩] none [] rest
  | execute action params result onFailure :: rest =>
    choose [⟨.action action params result, [], onFailure⟩] none [] rest
  | alternative branches :: rest => choose (offers branches) none [] rest
  | waitAny branches timeout onTimeout :: rest =>
    choose (offers branches) (timeout.bind Duration.ofSeconds?) onTimeout rest

end Statement

end Dialogue
