import Dialogue.Proofs.Library.Loading
import Dialogue.Proofs.Program.Mentions

/-!
# Timeouts in programs

The timeouts in a program are those that are written in the flow. They are written as numbers of
seconds, and what is accepted is a positive number. But time is counted in whole nanoseconds: a
number of seconds that is half a nanosecond at most becomes no time at all.

## Main definitions

* `Duration.vanishes` — the numbers of seconds that become no time at all
* `Statement.timeouts`, `Statement.timeoutsIn` — the timeouts that are written in a flow

## Main results

* `checkTimeout_eq_zero_iff` — an accepted timeout is no time at all exactly if it vanishes
* `FlowDefinition.exists_timeout` — where the timeouts of a program come from
* `FlowLibrary.exists_definition` — where the flows of a library come from
-/

namespace Dialogue

/-! ## Rounding -/

theorem Decimal.roundHalfEven_eq_zero_iff {n m : Nat} (hm : 0 < m) :
    roundHalfEven n m = 0 ↔ 2 * n ≤ m := by
  unfold roundHalfEven
  dsimp only
  by_cases small : n < m
  · rw [Nat.div_eq_of_lt small, Nat.mod_eq_of_lt small]
    split_ifs with below above even
    · exact iff_of_true rfl (Nat.le_of_lt below)
    · exact iff_of_false id (Nat.not_le_of_lt above)
    · exact iff_of_true rfl (Nat.le_of_not_lt above)
    · exact absurd rfl even
  -- What is not smaller than one is not rounded to zero.
  · have whole : n / m ≠ 0 := Nat.pos_iff_ne_zero.1 (Nat.div_pos (Nat.le_of_not_lt small) hm)
    refine iff_of_false (fun zero => ?_) (by omega)
    split_ifs at zero
    · exact whole zero
    · exact whole zero

theorem Decimal.Dyadic.quotient_pos (d : Dyadic) : 0 < d.quotient.2 := by
  unfold quotient
  split
  · exact Nat.one_pos
  · rw [Nat.one_shiftLeft]
    exact Nat.two_pow_pos _

/-- Whether a number of seconds is half a nanosecond at most. -/
def Duration.vanishes (x : Float) : Bool :=
  match Decimal.magnitude x with
  | .finite d => 2 * (d.quotient.1 * nanosPerSecond) ≤ d.quotient.2
  | _ => false

theorem Duration.ofSeconds?_eq_zero_iff {x : Float} {d : Duration} (h : ofSeconds? x = some d) :
    d = ⟨0⟩ ↔ vanishes x = true := by
  unfold ofSeconds? at h
  unfold vanishes
  generalize Decimal.magnitude x = magnitude at h ⊢
  cases magnitude with
  | finite q =>
    dsimp only at h
    split_ifs at h
    obtain rfl := Option.some.inj h
    simp only [Duration.mk.injEq, decide_eq_true_eq,
      Decimal.roundHalfEven_eq_zero_iff q.quotient_pos]
  | _ => cases h

/-- A timeout that is accepted is no time at all exactly if it is half a nanosecond at most. -/
theorem checkTimeout_eq_zero_iff {flow : String} {x : Float} {d : Duration}
    (h : checkTimeout flow x = .ok d) : d = ⟨0⟩ ↔ Duration.vanishes x = true :=
  Duration.ofSeconds?_eq_zero_iff (Program.ofSeconds?_of_checkTimeout h)

/-! ## The timeouts that are written in a flow -/

namespace Statement

mutual

/-- The timeouts in a statement. -/
def timeouts : Statement → List Float
  | waitAny branches timeout onTimeout =>
    timeout.toList ++ (timeoutsInBranches branches ++ timeoutsIn onTimeout)
  | execute _ _ _ onFailure => timeoutsInHandler onFailure
  | await _ _ onFailure => timeoutsInHandler onFailure
  | sequence body => timeoutsIn body
  | loop body => timeoutsIn body
  | alternative branches => timeoutsInBranches branches
  | branch _ thenBody elseBody => timeoutsIn thenBody ++ timeoutsIn elseBody
  | expect _ | send .. | start .. | assign .. | abort _ => []

/-- The timeouts in a body. -/
def timeoutsIn : List Statement → List Float
  | [] => []
  | s :: rest => timeouts s ++ timeoutsIn rest

/-- The timeouts in the branches of a choice. -/
def timeoutsInBranches : List (List Statement) → List Float
  | [] => []
  | b :: rest => timeoutsIn b ++ timeoutsInBranches rest

/-- The timeouts in a handler, if there is one. -/
def timeoutsInHandler : Option (List Statement) → List Float
  | none => []
  | some body => timeoutsIn body

end

end Statement

/-- The number of seconds of a mention, if it is a timeout. -/
def Mention.timeout? : Mention → Option Float
  | .timeout x => some x
  | _ => none

namespace Statement

mutual

theorem timeouts_eq : ∀ s : Statement, s.timeouts = s.mentions.filterMap Mention.timeout?
  | expect _ | send .. | start .. | assign .. | abort _ => by
    simp [timeouts, mentions, Mention.timeout?]
  | await _ _ onFailure => by
    simp [timeouts, mentions, List.filterMap_cons, Mention.timeout?, timeoutsInHandler_eq onFailure]
  | execute _ _ _ onFailure => by
    simp [timeouts, mentions, List.filterMap_cons, Mention.timeout?, timeoutsInHandler_eq onFailure]
  | sequence body => by simp [timeouts, mentions, timeoutsIn_eq body]
  | loop body => by simp [timeouts, mentions, timeoutsIn_eq body]
  | alternative branches => by simp [timeouts, mentions, timeoutsInBranches_eq branches]
  | waitAny branches timeout onTimeout => by
    have own : (timeout.toList.map Mention.timeout).filterMap Mention.timeout? =
        timeout.toList := by
      cases timeout <;> rfl
    simp [timeouts, mentions, own, timeoutsInBranches_eq branches, timeoutsIn_eq onTimeout]
  | branch _ thenBody elseBody => by
    simp [timeouts, mentions, timeoutsIn_eq thenBody, timeoutsIn_eq elseBody]

/-- The timeouts in a body are those that it mentions. -/
theorem timeoutsIn_eq : ∀ body : List Statement,
    timeoutsIn body = (mentionsIn body).filterMap Mention.timeout?
  | [] => rfl
  | s :: rest => by simp [timeoutsIn, mentionsIn, timeouts_eq s, timeoutsIn_eq rest]

theorem timeoutsInBranches_eq : ∀ bs : List (List Statement),
    timeoutsInBranches bs = (mentionsInBranches bs).filterMap Mention.timeout?
  | [] => rfl
  | b :: rest => by
    simp [timeoutsInBranches, mentionsInBranches, timeoutsIn_eq b, timeoutsInBranches_eq rest]

theorem timeoutsInHandler_eq : ∀ onFailure : Option (List Statement),
    timeoutsInHandler onFailure = (mentionsInHandler onFailure).filterMap Mention.timeout?
  | none => rfl
  | some body => by simp [timeoutsInHandler, mentionsInHandler, timeoutsIn_eq body]

end

end Statement

/-- Every timeout in the program of a flow is written in the flow. -/
theorem FlowDefinition.exists_timeout {d : FlowDefinition} {program : Program}
    (h : d.compile = .ok program) {pc : Nat} {s : Select} {after : Duration}
    (hs : program.get? pc = some (.select s)) (ht : s.timeout = some after) :
    ∃ x ∈ Statement.timeoutsIn d.body, Duration.ofSeconds? x = some after := by
  obtain ⟨-, timed, -⟩ := FlowDefinition.drawsOn_compile h hs
  obtain ⟨x, mentioned, hx⟩ := timed after ht
  rw [Statement.timeoutsIn_eq]
  exact ⟨x, List.mem_filterMap.2 ⟨_, mentioned, rfl⟩, hx⟩

/-! ## Libraries -/

namespace FlowLibrary

/-- The flows of a library are those that are defined, with their programs. -/
theorem exists_definition {vocabulary : Vocabulary} {ds : List FlowDefinition}
    {library : FlowLibrary} (h : ofDefinitions vocabulary ds = .ok library) {name : String}
    {flow : CompiledFlow} (hf : library.get? name = some flow) :
    flow.definition ∈ ds ∧ flow.definition.compile = .ok flow.program := by
  obtain ⟨-, h⟩ := ofDefinitions_eq_ok_iff.1 h
  obtain ⟨d, hd, -, rfl, compiled⟩ := (h.flows name flow).1 hf
  exact ⟨hd, compiled⟩

end FlowLibrary

end Dialogue
