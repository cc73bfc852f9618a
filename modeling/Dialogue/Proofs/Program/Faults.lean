import Dialogue.Proofs.Evaluation
import Dialogue.Proofs.Program.Within

/-!
# Why a flow is not compiled

Code is refused for a fault of one statement: a loop that may run for ever without waiting, a
choice without branches, a branch that does not begin by waiting for something, or a mistake about
the time that a choice takes. The error names the flow and says what kind of fault it is, so
somewhere in the body stands a statement that has this fault.

## Main definitions

* `Statement.Fault` — what can be wrong with a single statement
* `Emit.FailsWith` — a code fails only with errors of one kind

## Main results

* `FlowDefinition.exists_fault` — a flow that is refused has a statement with that fault
-/

namespace Dialogue

/-- What can be wrong with a statement, and the error of a flow that has such a statement. -/
inductive Statement.Fault (flow : String) : Statement → DefinitionError → Prop
  | loop {body : List Statement} (runsThrough : suspendsIn body = false) :
    Fault flow (.loop body) (.nonBlockingLoop flow)
  | noBranches {s : Statement} {bs : List (List Statement)} (choice : s.branches? = some bs)
    (none : openBranches bs = []) : Fault flow s (.invalid flow .noBranches)
  | lead {s : Statement} {bs : List (List Statement)} {b : List Statement}
    (choice : s.branches? = some bs) (opened : b ∈ openBranches bs) (silent : offer? b = none) :
    Fault flow s (.nonBlockingLead flow)
  | timeout {bs : List (List Statement)} {seconds : Float} {onTimeout : List Statement}
    {err : DefinitionError} (wrong : checkTimeout flow seconds = .error err) :
    Fault flow (.waitAny bs (some seconds) onTimeout) err
  | noTimeout {bs : List (List Statement)} {onTimeout : List Statement} (given : onTimeout ≠ []) :
    Fault flow (.waitAny bs none onTimeout) (.invalid flow .timeoutBodyWithoutTimeout)

/-- A code fails only with errors of one kind, wherever it begins. -/
def Emit.FailsWith (P : DefinitionError → Prop) (e : Emit) : Prop :=
  ∀ pc err, e pc = .error err → P err

/-- The code of a part and what it does on failure fail only with errors of one kind. -/
structure Part.FailsWith (P : DefinitionError → Prop) (p : Part) : Prop where
  code : p.code.FailsWith P
  onFailure : ∀ handler, p.onFailure = some handler → handler.FailsWith P

section Code

variable {P : DefinitionError → Prop} {flow : String}

theorem Emit.failsWith_nothing : nothing.FailsWith P := nofun

theorem Emit.failsWith_one (i : Instr) : (one i).FailsWith P := nofun

theorem Emit.failsWith_all {codes : List Emit} (h : ∀ e ∈ codes, e.FailsWith P) :
    (all codes).FailsWith P := by
  induction codes with
  | nil => exact failsWith_nothing
  | cons e rest ih =>
    intro pc err herr
    rw [List.forall_mem_cons] at h
    rcases bind_eq_error.1 herr with here | ⟨first, -, herr⟩
    · exact h.1 pc err here
    rcases bind_eq_error.1 herr with behind | ⟨others, -, herr⟩
    · exact ih h.2 _ err behind
    · cases herr

theorem Emit.failsWith_parts {ps : List Part} (h : ∀ p ∈ ps, p.FailsWith P) :
    (all (ps.map Part.code)).FailsWith P := by
  apply failsWith_all
  simp only [List.forall_mem_map]
  exact fun p hp => (h p hp).code

theorem Emit.failsWith_loop {body : Emit} (h : body.FailsWith P) : (loop body).FailsWith P := by
  intro pc err herr
  rcases bind_eq_error.1 herr with inside | ⟨_, -, herr⟩
  · exact h pc err inside
  · cases herr

theorem Emit.failsWith_branch {condition : Condition} {thenBody : Emit} {elseBody : Option Emit}
    (h : thenBody.FailsWith P) (h' : ∀ e, elseBody = some e → e.FailsWith P) :
    (branch condition thenBody elseBody).FailsWith P := by
  intro pc err herr
  rcases bind_eq_error.1 herr with first | ⟨_, -, herr⟩
  · exact h _ err first
  cases elseBody with
  | none => cases herr
  | some e =>
    rcases bind_eq_error.1 herr with second | ⟨_, -, herr⟩
    · exact h' e rfl _ err second
    · cases herr

/-- Laying out branches fails for a branch that has no lead, or for the code of one of them. -/
theorem failsWith_layBranches {branches : List (List Part)}
    (h : ∀ b ∈ branches, ∀ p ∈ b, p.FailsWith P)
    (lead : ∀ b ∈ branches, b.head?.bind Part.lead = none → P (.nonBlockingLead flow)) :
    ∀ pc err, layBranches flow pc branches = .error err → P err := by
  induction branches with
  | nil =>
    intro pc err herr
    cases herr
  | cons b branches ih =>
    rw [List.forall_mem_cons] at h lead
    have others := ih h.2 lead.2
    intro pc err herr
    cases b with
    | nil =>
      cases herr
      exact lead.1 rfl
    | cons head tail =>
      have parts := List.forall_mem_cons.1 h.1
      simp only [layBranches] at herr
      cases hlead : head.lead with
      | none =>
        rw [hlead] at herr
        cases herr
        exact lead.1 hlead
      | some l =>
        rw [hlead] at herr
        rcases bind_eq_error.1 herr with here | ⟨code, -, herr⟩
        · exact Emit.failsWith_parts parts.2 pc err here
        -- What is done on failure is laid out behind the branch.
        cases hfail : head.onFailure with
        | none =>
          rw [hfail] at herr
          rcases bind_eq_error.1 herr with later | ⟨_, -, herr⟩
          · exact others _ err later
          · cases herr
        | some handler =>
          rw [hfail] at herr
          rcases bind_eq_error.1 herr with failure | ⟨_, -, herr⟩
          · exact parts.1.onFailure handler hfail _ err failure
          rcases bind_eq_error.1 herr with later | ⟨_, -, herr⟩
          · exact others _ err later
          · cases herr

theorem Emit.failsWith_select {branches : List (List Part)} {timeout : Option Duration}
    {onTimeout : Emit} (h : ∀ b ∈ branches, ∀ p ∈ b, p.FailsWith P)
    (lead : ∀ b ∈ branches, b.head?.bind Part.lead = none → P (.nonBlockingLead flow))
    (filled : branches = [] → P (.invalid flow .noBranches)) (h' : onTimeout.FailsWith P) :
    (select flow branches timeout onTimeout).FailsWith P := by
  intro pc err herr
  rw [select] at herr
  split at herr
  · next empty =>
    cases herr
    exact filled (List.isEmpty_iff.1 empty)
  -- What is done when time is up is compiled in front of the branches.
  · cases timeout with
    | none =>
      obtain ⟨before, -, herr⟩ := (bind_eq_error.1 herr).resolve_left fun wrong => by cases wrong
      rcases bind_eq_error.1 herr with laid | ⟨_, -, herr⟩
      · exact failsWith_layBranches h lead _ err laid
      · cases herr
    | some d =>
      rcases bind_eq_error.1 herr with late | ⟨code, -, herr⟩
      · exact h' _ err late
      obtain ⟨before, -, herr⟩ := (bind_eq_error.1 herr).resolve_left fun wrong => by cases wrong
      rcases bind_eq_error.1 herr with laid | ⟨_, -, herr⟩
      · exact failsWith_layBranches h lead _ err laid
      · cases herr

theorem Emit.failsWith_waitAny {branches : List (List Part)} {timeout : Option Float}
    {onTimeout : Option Emit} (h : ∀ b ∈ branches, ∀ p ∈ b, p.FailsWith P)
    (lead : ∀ b ∈ branches, b.head?.bind Part.lead = none → P (.nonBlockingLead flow))
    (filled : branches = [] → P (.invalid flow .noBranches))
    (limit : ∀ seconds err, timeout = some seconds → checkTimeout flow seconds = .error err → P err)
    (limited : timeout = none → onTimeout.isSome → P (.invalid flow .timeoutBodyWithoutTimeout))
    (h' : ∀ e, onTimeout = some e → e.FailsWith P) :
    (waitAny flow branches timeout onTimeout).FailsWith P := by
  -- If the time that is given is accepted, the wait fails as a choice does.
  have accepted (d : Option Duration) :
      (select flow branches d (onTimeout.getD nothing)).FailsWith P := by
    apply failsWith_select h lead filled
    cases onTimeout with
    | none => exact failsWith_nothing
    | some e => exact h' e rfl
  intro pc err herr
  cases timeout with
  | none =>
    obtain ⟨d, hd, herr⟩ := (bind_eq_error.1 herr).resolve_left nofun
    cases hd
    cases onTimeout with
    | none => exact accepted none pc err herr
    | some e =>
      cases herr
      exact limited rfl rfl
  | some seconds =>
    rcases bind_eq_error.1 herr with wrong | ⟨d, -, herr⟩
    · exact limit seconds err rfl wrong
    · exact accepted (some d) pc err herr

theorem Part.failsWith_leading {lead : Lead} {onFailure : Option Emit}
    (h : ∀ e, onFailure = some e → e.FailsWith P) : (leading flow lead onFailure).FailsWith P where
  code := by
    show (Emit.select flow [[⟨some lead, onFailure, Emit.nothing⟩]] none Emit.nothing).FailsWith P
    apply Emit.failsWith_select
    · simpa using ⟨Emit.failsWith_nothing, h⟩
    · simp
    · simp
    · exact Emit.failsWith_nothing
  onFailure := h

theorem Part.failsWith_following {code : Emit} (h : code.FailsWith P) :
    (following code).FailsWith P :=
  ⟨h, nofun⟩

end Code

namespace Statement

variable {flow : String} {s : Statement} {P : DefinitionError → Prop}

/-- An opened branch makes an offer if the first of its parts waits for something. -/
theorem offer?_eq_none {b : List Statement} (h : (parts flow b).head?.bind Part.lead = none) :
    offer? b = none := by
  cases b with
  | nil => rfl
  | cons s rest =>
    rw [parts] at h
    cases s with
    | expect | await | execute => simp [part, Part.leading] at h
    | _ => rfl

theorem failsWith_body {body : List Statement} (h : ∀ s ∈ body, (part flow s).FailsWith P) :
    (Emit.all ((parts flow body).map Part.code)).FailsWith P := by
  apply Emit.failsWith_parts
  rw [parts_eq_map]
  simpa using h

/-- A body may be left out, and then it has no code. -/
theorem failsWith_given {body : List Statement} (h : ∀ s ∈ body, (part flow s).FailsWith P) :
    ∀ e, (if body.isEmpty then none else some (Emit.all ((parts flow body).map Part.code))) = some e →
      e.FailsWith P := by
  intro e given
  obtain ⟨-, given⟩ := Option.ite_none_left_eq_some.1 given
  obtain rfl := Option.some.inj given
  exact failsWith_body h

theorem failsWith_handlerCode {onFailure : Option (List Statement)}
    (h : ∀ b ∈ onFailure.toList, ∀ s ∈ b, (part flow s).FailsWith P) :
    ∀ e, handlerCode flow onFailure = some e → e.FailsWith P := by
  cases onFailure with
  | none => simp [handlerCode]
  | some body =>
    simp only [handlerCode, Option.some.injEq, forall_eq']
    exact failsWith_body (by simpa using h)

theorem failsWith_flatBranches {bs : List (List Statement)}
    (h : ∀ s ∈ allInBranches bs, (part flow s).FailsWith P) :
    ∀ ps ∈ flatBranches flow bs, ∀ p ∈ ps, p.FailsWith P := by
  intro ps hps p hp
  obtain ⟨s, hs, rfl⟩ := exists_of_mem_flatBranches hps hp
  exact h s hs

/-- When the flattened branches of a choice cannot be laid out, the choice has a fault. -/
theorem fault_of_branches {bs : List (List Statement)} (choice : s.branches? = some bs)
    (wrong : ∀ err, Fault flow s err → P err) :
    (∀ ps ∈ flatBranches flow bs, ps.head?.bind Part.lead = none → P (.nonBlockingLead flow)) ∧
      (flatBranches flow bs = [] → P (.invalid flow .noBranches)) := by
  rw [parts_openBranches, List.forall_mem_map, List.map_eq_nil_iff]
  constructor
  · intro b opened silent
    exact wrong _ (.lead choice opened (offer?_eq_none silent))
  · intro none
    exact wrong _ (.noBranches choice none)

/-- The code of a statement fails for a fault of it, or for what fails within it. -/
theorem failsWith_part (wrong : ∀ err, Fault flow s err → P err)
    (within : ∀ t ∈ inner s, (part flow t).FailsWith P) : (part flow s).FailsWith P := by
  -- What fails inside the bodies and branches is covered, so each case is about its own code.
  have inBody : ∀ b ∈ bodies s, ∀ t ∈ b, (part flow t).FailsWith P :=
    fun b hb t ht => within t (mem_inner_of_mem hb ht)
  have inBranches : ∀ bs, s.branches? = some bs →
      ∀ ps ∈ flatBranches flow bs, ∀ p ∈ ps, p.FailsWith P := by
    intro bs choice
    apply failsWith_flatBranches
    exact fun t ht => within t (mem_inner_of_branches? choice ht)
  cases s with
  | expect pattern =>
    rw [part]
    exact Part.failsWith_leading (by simp)
  | await target args onFailure =>
    rw [part]
    exact Part.failsWith_leading (failsWith_handlerCode inBody)
  | execute action params result onFailure =>
    rw [part]
    exact Part.failsWith_leading (failsWith_handlerCode inBody)
  | send | start | assign | abort =>
    rw [part]
    exact Part.failsWith_following (Emit.failsWith_one _)
  | sequence body =>
    rw [part]
    exact Part.failsWith_following (failsWith_body (inBody body (by simp [bodies])))
  | loop body =>
    rw [part]
    apply Part.failsWith_following
    split
    · exact Emit.failsWith_loop (failsWith_body (inBody body (by simp [bodies])))
    · next runsThrough =>
      intro pc err herr
      cases herr
      exact wrong _ (.loop (by simpa using runsThrough))
  | branch condition thenBody elseBody =>
    rw [part]
    apply Part.failsWith_following
    apply Emit.failsWith_branch (failsWith_body (inBody thenBody (by simp [bodies])))
    exact failsWith_given (inBody elseBody (by simp [bodies]))
  | alternative branches =>
    have faults := fault_of_branches rfl wrong
    rw [part]
    exact Part.failsWith_following (Emit.failsWith_select (inBranches branches rfl) faults.1
      faults.2 Emit.failsWith_nothing)
  | waitAny branches timeout onTimeout =>
    have faults := fault_of_branches rfl wrong
    rw [part]
    apply Part.failsWith_following
    apply Emit.failsWith_waitAny (inBranches branches rfl) faults.1 faults.2
    · intro seconds err limited herr
      cases limited
      exact wrong err (.timeout herr)
    · intro unlimited given
      cases unlimited
      refine wrong _ (.noTimeout ?_)
      rintro rfl
      simp at given
    · exact failsWith_given (inBody onTimeout (by simp [bodies]))

end Statement

/-- A timeout is refused for being too short or for being too long. -/
theorem error_of_checkTimeout {flow : String} {seconds : Float} {err : DefinitionError}
    (h : checkTimeout flow seconds = .error err) :
    err = .invalid flow (.timeoutNotPositive seconds) ∨
      err = .invalid flow (.timeoutTooLong seconds) := by
  rw [checkTimeout] at h
  split at h
  · cases h
    exact .inl rfl
  split at h
  · cases h
    exact .inr rfl
  split at h
  · cases h
  · cases h
    exact .inr rfl

/-- A flow that is refused has a statement with that fault. -/
theorem FlowDefinition.exists_fault {d : FlowDefinition} {err : DefinitionError}
    (h : d.compile = .error err) : ∃ s ∈ Statement.allIn d.body, s.Fault d.name err := by
  have each (s : Statement) (hs : s ∈ Statement.allIn d.body) : (s.part d.name).FailsWith
      fun err => ∃ t ∈ Statement.allIn d.body, t.Fault d.name err := by
    induction s using Statement.induct with
    | step s ih =>
      apply Statement.failsWith_part
      · intro err fault
        exact ⟨s, hs, fault⟩
      · intro t ht
        exact ih t ht (Statement.inner_subset_allIn hs ht)
  rcases bind_eq_error.1 h with inBody | ⟨_, -, h⟩
  · exact Statement.failsWith_body (fun s hs => each s (Statement.mem_allIn_of_mem hs)) 0 err inBody
  · cases h

end Dialogue
