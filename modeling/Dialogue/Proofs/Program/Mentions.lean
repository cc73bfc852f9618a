import Dialogue.Proofs.Program.Within

/-!
# What programs are made of

A program holds nothing that is not written in its flow. What its arms wait for, what it sends and
what it starts are mentioned by some statement, wherever that stands: in a branch or in a body that
runs when time is up, in the handler of a failure, or behind a choice that was flattened, so that
it has been copied. Only durations are not as they are written; they are numbers of seconds there.

## Main definitions

* `Mention`, `Statement.mentions`, `Statement.mentionsIn` — what is mentioned in a flow
* `Instr.Starts`, `Instr.Calls` — the flows and actions that an instruction asks for
* `Instr.DrawsOn` — an instruction holds only what has been mentioned

## Main results

* `Statement.mentions_subset_of_inner` — a statement mentions what is mentioned within it
* `Statement.drawsOn_part` — the code of a statement draws on what it mentions
* `FlowDefinition.drawsOn_compile` — so does the program of a flow
* `Statement.actionsIn_eq` — the actions that a body calls are those that it mentions
-/

namespace Dialogue

/-! ## What is mentioned in a flow -/

/-- Something that a statement refers to. -/
inductive Mention where
  /-- What an arm of it waits for. -/
  | lead (lead : Lead)
  /-- For how many seconds it waits. -/
  | timeout (seconds : Float)
  /-- An event that it sends. -/
  | send (event : String)
  /-- A flow that it starts, with arguments, and does not wait for. -/
  | start (flow : String) (args : Table String Expr)

/-- The action of a mention, if it is a call. -/
def Mention.action? : Mention → Option String
  | .lead (.action name _ _) => some name
  | _ => none

namespace Statement

mutual

/-- What is mentioned in a statement. -/
def mentions : Statement → List Mention
  | expect pattern => [.lead (.event pattern)]
  | send event _ => [.send event]
  | start flow args _ => [.start flow args]
  | await flow args onFailure => .lead (.flow flow args) :: mentionsInHandler onFailure
  | execute action params result onFailure =>
    .lead (.action action params result) :: mentionsInHandler onFailure
  | sequence body => mentionsIn body
  | loop body => mentionsIn body
  | alternative branches => mentionsInBranches branches
  | waitAny branches timeout onTimeout =>
    timeout.toList.map .timeout ++ (mentionsInBranches branches ++ mentionsIn onTimeout)
  | branch _ thenBody elseBody => mentionsIn thenBody ++ mentionsIn elseBody
  | assign .. | abort _ => []

/-- What is mentioned in a body. -/
def mentionsIn : List Statement → List Mention
  | [] => []
  | s :: rest => mentions s ++ mentionsIn rest

/-- What is mentioned in the branches of a choice. -/
def mentionsInBranches : List (List Statement) → List Mention
  | [] => []
  | b :: rest => mentionsIn b ++ mentionsInBranches rest

/-- What is mentioned in a handler, if there is one. -/
def mentionsInHandler : Option (List Statement) → List Mention
  | none => []
  | some body => mentionsIn body

end

mutual

theorem actions_eq : ∀ s : Statement, s.actions = s.mentions.filterMap Mention.action?
  | expect _ | send .. | start .. | assign .. | abort _ => by
    simp [actions, mentions, Mention.action?]
  | await _ _ onFailure => by
    simp [actions, mentions, List.filterMap_cons, Mention.action?, actionsInHandler_eq onFailure]
  | execute _ _ _ onFailure => by
    simp [actions, mentions, Mention.action?, actionsInHandler_eq onFailure]
  | sequence body => by simp [actions, mentions, actionsIn_eq body]
  | loop body => by simp [actions, mentions, actionsIn_eq body]
  | alternative branches => by simp [actions, mentions, actionsInBranches_eq branches]
  | waitAny branches timeout onTimeout => by
    have silent : (timeout.toList.map Mention.timeout).filterMap Mention.action? = [] := by
      cases timeout <;> rfl
    simp [actions, mentions, silent, actionsInBranches_eq branches, actionsIn_eq onTimeout]
  | branch _ thenBody elseBody => by
    simp [actions, mentions, actionsIn_eq thenBody, actionsIn_eq elseBody]

/-- The actions that a body calls are those that it mentions. -/
theorem actionsIn_eq : ∀ body : List Statement,
    actionsIn body = (mentionsIn body).filterMap Mention.action?
  | [] => rfl
  | s :: rest => by simp [actionsIn, mentionsIn, actions_eq s, actionsIn_eq rest]

theorem actionsInBranches_eq : ∀ bs : List (List Statement),
    actionsInBranches bs = (mentionsInBranches bs).filterMap Mention.action?
  | [] => rfl
  | b :: rest => by
    simp [actionsInBranches, mentionsInBranches, actionsIn_eq b, actionsInBranches_eq rest]

theorem actionsInHandler_eq : ∀ onFailure : Option (List Statement),
    actionsInHandler onFailure = (mentionsInHandler onFailure).filterMap Mention.action?
  | none => rfl
  | some body => by simp [actionsInHandler, mentionsInHandler, actionsIn_eq body]

end

variable {s t : Statement} {b body : List Statement}

theorem mentions_subset_mentionsIn (h : s ∈ body) : mentions s ⊆ mentionsIn body := by
  induction body with
  | nil => cases h
  | cons first rest ih =>
    rw [mentionsIn]
    rcases List.mem_cons.1 h with rfl | later
    · exact List.subset_append_left _ _
    · exact List.Subset.trans (ih later) (List.subset_append_right _ _)

theorem mentionsIn_subset_of_branch {bs : List (List Statement)} (h : b ∈ bs) :
    mentionsIn b ⊆ mentionsInBranches bs := by
  induction bs with
  | nil => cases h
  | cons first rest ih =>
    rw [mentionsInBranches]
    rcases List.mem_cons.1 h with rfl | later
    · exact List.subset_append_left _ _
    · exact List.Subset.trans (ih later) (List.subset_append_right _ _)

theorem mentionsIn_subset_of_body (h : b ∈ bodies s) : mentionsIn b ⊆ mentions s := by
  -- What a statement mentions is what its bodies mention, and what it mentions itself.
  cases s with
  | await _ _ onFailure | execute _ _ _ onFailure =>
    obtain rfl := Option.mem_toList.1 h
    exact List.subset_cons_self _ _
  | sequence body | loop body =>
    obtain rfl := List.mem_singleton.1 h
    simp [mentions]
  | alternative branches =>
    rw [mentions]
    exact mentionsIn_subset_of_branch h
  | waitAny branches timeout onTimeout =>
    rw [mentions]
    refine List.Subset.trans ?_ (List.subset_append_right _ _)
    rcases List.mem_append.1 h with branch | late
    · exact List.Subset.trans (mentionsIn_subset_of_branch branch) (List.subset_append_left _ _)
    · obtain rfl := List.mem_singleton.1 late
      exact List.subset_append_right _ _
  | branch condition thenBody elseBody =>
    rw [mentions]
    obtain rfl | rfl : b = thenBody ∨ b = elseBody := by simpa [bodies] using h
    · exact List.subset_append_left _ _
    · exact List.subset_append_right _ _
  | _ => cases h

/-- A statement mentions what is mentioned within it. -/
theorem mentions_subset_of_inner (s : Statement) : ∀ t ∈ inner s, mentions t ⊆ mentions s := by
  induction s using induct with
  | step s ih =>
    intro t ht
    obtain ⟨b, hb, ht⟩ := mem_inner_iff.1 ht
    obtain ⟨r, hr, found⟩ := mem_allIn_iff.1 ht
    have above : mentions r ⊆ mentions s :=
      List.Subset.trans (mentions_subset_mentionsIn hr) (mentionsIn_subset_of_body hb)
    rcases found with rfl | within
    · exact above
    · exact List.Subset.trans (ih r (mem_inner_of_mem hb hr) t within) above

end Statement

/-! ## Code -/

/-- An instruction starts a flow with arguments, for itself or for one of its arms. -/
inductive Instr.Starts : Instr → String → Table String Expr → Prop
  | start (flow args isDetached) : Starts (.start flow args isDetached) flow args
  | arm {s : Select} {arm : Arm} {flow args} (mem : arm ∈ s.arms)
    (lead : arm.lead = .flow flow args) : Starts (.select s) flow args

/-- An arm of an instruction calls an action. -/
inductive Instr.Calls : Instr → String → Prop
  | arm {s : Select} {arm : Arm} {action params result} (mem : arm ∈ s.arms)
    (lead : arm.lead = .action action params result) : Calls (.select s) action

/-- An instruction holds only what has been mentioned. Where time may be up, there is a place to go
on then. -/
def Instr.DrawsOn (M : Mention → Prop) : Instr → Prop
  | .select s => (∀ arm ∈ s.arms, M (.lead arm.lead)) ∧
    (∀ after, s.timeout = some after → ∃ x, M (.timeout x) ∧ Duration.ofSeconds? x = some after) ∧
      s.onTimeout.isSome = s.timeout.isSome
  | .send event _ => M (.send event)
  | .start flow args _ => M (.start flow args)
  | _ => True

/-- The instructions of a code hold only what has been mentioned, wherever it begins. -/
def Emit.DrawsOn (M : Mention → Prop) (e : Emit) : Prop :=
  ∀ pc code, e pc = .ok code → ∀ i ∈ code, i.DrawsOn M

/-- A part of a flattened branch holds only what has been mentioned. -/
structure Part.DrawsOn (M : Mention → Prop) (p : Part) : Prop where
  lead : ∀ lead, p.lead = some lead → M (.lead lead)
  code : p.code.DrawsOn M
  onFailure : ∀ handler, p.onFailure = some handler → handler.DrawsOn M

section Code

variable {M : Mention → Prop} {flow : String}

theorem Emit.drawsOn_nothing : nothing.DrawsOn M := by
  intro pc code h i hi
  obtain rfl : [] = code := Except.ok.inj h
  cases hi

theorem Emit.drawsOn_one {i : Instr} (h : i.DrawsOn M) : (one i).DrawsOn M := by
  intro pc code hcode i' hi
  obtain rfl : [i] = code := Except.ok.inj hcode
  obtain rfl := List.mem_singleton.1 hi
  exact h

theorem Emit.drawsOn_all {codes : List Emit} (h : ∀ e ∈ codes, e.DrawsOn M) :
    (all codes).DrawsOn M := by
  induction codes with
  | nil => exact drawsOn_nothing
  | cons e rest ih =>
    intro pc code hcode i hi
    obtain ⟨first, others, hfirst, hothers, rfl⟩ := all_cons hcode
    rcases List.mem_append.1 hi with hi | hi
    · exact h e List.mem_cons_self pc first hfirst i hi
    · exact ih (fun e he => h e (List.mem_cons_of_mem _ he)) _ others hothers i hi

theorem Emit.drawsOn_parts {ps : List Part} (h : ∀ p ∈ ps, p.DrawsOn M) :
    (all (ps.map Part.code)).DrawsOn M := by
  apply drawsOn_all
  intro e he
  obtain ⟨p, hp, rfl⟩ := List.mem_map.1 he
  exact (h p hp).code

theorem Emit.drawsOn_loop {body : Emit} (h : body.DrawsOn M) : (loop body).DrawsOn M := by
  intro pc code hcode i hi
  obtain ⟨inner, hinner, heq⟩ := bind_eq_ok.1 hcode
  obtain rfl := Except.ok.inj heq
  rcases List.mem_append.1 hi with hi | hi
  · exact h pc inner hinner i hi
  · obtain rfl := List.mem_singleton.1 hi
    trivial

theorem Emit.drawsOn_branch {condition : Condition} {thenBody : Emit} {elseBody : Option Emit}
    (h : thenBody.DrawsOn M) (h' : ∀ e, elseBody = some e → e.DrawsOn M) :
    (branch condition thenBody elseBody).DrawsOn M := by
  intro pc code hcode i hi
  obtain ⟨first, hfirst, hcode⟩ := bind_eq_ok.1 hcode
  cases elseBody with
  | none =>
    obtain rfl := Except.ok.inj hcode
    rcases List.mem_cons.1 hi with rfl | hi
    · trivial
    · exact h _ first hfirst i hi
  | some e =>
    obtain ⟨second, hsecond, hcode⟩ := bind_eq_ok.1 hcode
    obtain rfl := Except.ok.inj hcode
    simp only [List.cons_append, List.mem_cons, List.mem_append] at hi
    rcases hi with rfl | hi | rfl | hi
    · trivial
    · exact h _ first hfirst i hi
    · trivial
    · exact h' e rfl _ second hsecond i hi

theorem mem_joinSegments {stop : Nat} {i : Instr} {codes : List (List Instr)}
    (h : i ∈ joinSegments stop codes) : i = .jump stop ∨ ∃ code ∈ codes, i ∈ code := by
  induction codes with
  | nil => cases h
  | cons code rest ih =>
    cases rest with
    | nil => exact .inr ⟨code, List.mem_cons_self, h⟩
    | cons next rest =>
      rw [joinSegments.eq_3 _ _ _ (by simp), List.mem_append, List.mem_cons] at h
      rcases h with h | rfl | h
      · exact .inr ⟨code, List.mem_cons_self, h⟩
      · exact .inl rfl
      · refine (ih h).imp_right ?_
        rintro ⟨code', hcode', hi⟩
        exact ⟨code', List.mem_cons_of_mem _ hcode', hi⟩

theorem drawsOn_layBranches {branches : List (List Part)}
    (h : ∀ b ∈ branches, ∀ p ∈ b, p.DrawsOn M) {pc : Nat} {s : Segments}
    (laid : layBranches flow pc branches = .ok s) :
    (∀ arm ∈ s.arms, M (.lead arm.lead)) ∧ ∀ code ∈ s.codes, ∀ i ∈ code, i.DrawsOn M := by
  induction branches generalizing pc s with
  | nil =>
    obtain rfl : ⟨[], []⟩ = s := Except.ok.inj laid
    exact ⟨nofun, nofun⟩
  | cons b branches ih =>
    obtain ⟨head, tail, lead, code, rfl, hlead, hcode, rest⟩ := layBranches_cons laid
    have others : ∀ {pc s}, layBranches flow pc branches = .ok s →
        (∀ arm ∈ s.arms, M (.lead arm.lead)) ∧ ∀ code ∈ s.codes, ∀ i ∈ code, i.DrawsOn M :=
      ih fun b hb => h b (List.mem_cons_of_mem _ hb)
    have parts := h _ List.mem_cons_self
    have arm : M (.lead lead) := (parts head List.mem_cons_self).lead lead hlead
    have first : ∀ i ∈ code, i.DrawsOn M :=
      Emit.drawsOn_parts (fun p hp => parts p (List.mem_cons_of_mem _ hp)) _ code hcode
    -- Behind the code of the branch stands the one that handles a failure, if there is one.
    rcases rest with ⟨-, s', hs', rfl⟩ | ⟨handler, failure, s', hhandler, hfailure, hs', rfl⟩
    · obtain ⟨arms, codes⟩ := others hs'
      exact ⟨List.forall_mem_cons.2 ⟨arm, arms⟩, List.forall_mem_cons.2 ⟨first, codes⟩⟩
    · obtain ⟨arms, codes⟩ := others hs'
      have onFailure := (parts head List.mem_cons_self).onFailure handler hhandler
      exact ⟨List.forall_mem_cons.2 ⟨arm, arms⟩, List.forall_mem_cons.2
        ⟨first, List.forall_mem_cons.2 ⟨onFailure _ failure hfailure, codes⟩⟩⟩

theorem Emit.drawsOn_select {branches : List (List Part)} {timeout : Option Duration}
    {onTimeout : Emit} (h : ∀ b ∈ branches, ∀ p ∈ b, p.DrawsOn M)
    (ht : ∀ after, timeout = some after → ∃ x, M (.timeout x) ∧ Duration.ofSeconds? x = some after)
    (h' : onTimeout.DrawsOn M) : (select flow branches timeout onTimeout).DrawsOn M := by
  intro pc code hcode i hi
  obtain ⟨before, s, laid, first, -, rfl⟩ := select_eq_ok hcode
  obtain ⟨arms, segments⟩ := drawsOn_layBranches h laid
  rcases List.mem_cons.1 hi with rfl | hi
  · exact ⟨arms, ht, Option.isSome_map⟩
  rcases mem_joinSegments hi with rfl | ⟨segment, hsegment, inside⟩
  · trivial
  rcases List.mem_append.1 hsegment with hsegment | hsegment
  -- The segment in front is what is done when time is up.
  · rcases first with ⟨-, rfl⟩ | ⟨d, late, -, hlate, rfl⟩
    · cases hsegment
    · obtain rfl := List.mem_singleton.1 hsegment
      exact h' _ _ hlate i inside
  · exact segments segment hsegment i inside

theorem Emit.drawsOn_waitAny {branches : List (List Part)} {timeout : Option Float}
    {onTimeout : Option Emit} (h : ∀ b ∈ branches, ∀ p ∈ b, p.DrawsOn M)
    (ht : ∀ x, timeout = some x → M (.timeout x))
    (h' : ∀ e, onTimeout = some e → e.DrawsOn M) :
    (waitAny flow branches timeout onTimeout).DrawsOn M := by
  have body : (onTimeout.getD nothing).DrawsOn M := by
    cases onTimeout with
    | none => exact drawsOn_nothing
    | some e => exact h' e rfl
  have accepted : ∀ after, timeout.bind Duration.ofSeconds? = some after →
      ∃ x, M (.timeout x) ∧ Duration.ofSeconds? x = some after := by
    intro after hafter
    obtain ⟨x, hx, hd⟩ := Option.bind_eq_some_iff.1 hafter
    exact ⟨x, ht x hx, hd⟩
  intro pc code hcode
  exact drawsOn_select h accepted body pc code (Program.select_of_waitAny hcode)

theorem Part.drawsOn_leading {lead : Lead} {onFailure : Option Emit} (hl : M (.lead lead))
    (h : ∀ e, onFailure = some e → e.DrawsOn M) : (leading flow lead onFailure).DrawsOn M where
  lead _ same := Option.some.inj same ▸ hl
  code := by
    show (Emit.select flow [[⟨some lead, onFailure, Emit.nothing⟩]] none Emit.nothing).DrawsOn M
    refine Emit.drawsOn_select (fun b hb p hp => ?_) nofun Emit.drawsOn_nothing
    obtain rfl := List.mem_singleton.1 hb
    obtain rfl := List.mem_singleton.1 hp
    exact ⟨fun _ same => Option.some.inj same ▸ hl, Emit.drawsOn_nothing, h⟩
  onFailure := h

theorem Part.drawsOn_following {code : Emit} (h : code.DrawsOn M) : (following code).DrawsOn M :=
  ⟨nofun, h, nofun⟩

end Code

namespace Statement

variable {M : Mention → Prop} {flow : String} {body : List Statement}

theorem drawsOn_body (h : ∀ s ∈ body, (part flow s).DrawsOn M) :
    (Emit.all ((parts flow body).map Part.code)).DrawsOn M := by
  apply Emit.drawsOn_parts
  rw [parts_eq_map]
  simpa using h

/-- A body may be left out, and then it has no code. -/
theorem drawsOn_given (h : ∀ s ∈ body, (part flow s).DrawsOn M) :
    ∀ e, (if body.isEmpty then none else some (Emit.all ((parts flow body).map Part.code))) = some e →
      e.DrawsOn M := by
  intro e given
  obtain ⟨-, given⟩ := Option.ite_none_left_eq_some.1 given
  obtain rfl := Option.some.inj given
  exact drawsOn_body h

theorem drawsOn_handlerCode {onFailure : Option (List Statement)}
    (h : ∀ b ∈ onFailure.toList, ∀ s ∈ b, (part flow s).DrawsOn M) :
    ∀ e, handlerCode flow onFailure = some e → e.DrawsOn M := by
  cases onFailure with
  | none => simp [handlerCode]
  | some body =>
    simp only [handlerCode, Option.some.injEq, forall_eq']
    exact drawsOn_body (by simpa using h)

/-- The code of a statement draws on what it mentions. -/
theorem drawsOn_part (s : Statement) (h : ∀ m ∈ s.mentions, M m) : (part flow s).DrawsOn M := by
  induction s using induct with
  | step s ih =>
    -- A part of the statement mentions nothing the statement does not.
    have inBody : ∀ b ∈ bodies s, ∀ t ∈ b, (part flow t).DrawsOn M := fun b hb t ht =>
      have within := mem_inner_of_mem hb ht
      ih t within fun m hm => h m (mentions_subset_of_inner s t within hm)
    have inBranches : ∀ bs, s.branches? = some bs →
        ∀ ps ∈ flatBranches flow bs, ∀ p ∈ ps, p.DrawsOn M := by
      intro bs choice ps hps p hp
      obtain ⟨t, ht, rfl⟩ := exists_of_mem_flatBranches hps hp
      have within := mem_inner_of_branches? choice ht
      exact ih t within fun m hm => h m (mentions_subset_of_inner s t within hm)
    cases s with
    | expect pattern =>
      rw [mentions, List.forall_mem_singleton] at h
      rw [part]
      exact Part.drawsOn_leading h (by simp)
    | await target args onFailure =>
      rw [mentions, List.forall_mem_cons] at h
      rw [part]
      exact Part.drawsOn_leading h.1 (drawsOn_handlerCode inBody)
    | execute action params result onFailure =>
      rw [mentions, List.forall_mem_cons] at h
      rw [part]
      exact Part.drawsOn_leading h.1 (drawsOn_handlerCode inBody)
    | send event params =>
      rw [mentions, List.forall_mem_singleton] at h
      rw [part]
      exact Part.drawsOn_following (Emit.drawsOn_one h)
    | start target args isDetached =>
      rw [mentions, List.forall_mem_singleton] at h
      rw [part]
      exact Part.drawsOn_following (Emit.drawsOn_one h)
    | assign | abort =>
      rw [part]
      exact Part.drawsOn_following (Emit.drawsOn_one trivial)
    | sequence body =>
      rw [part]
      exact Part.drawsOn_following (drawsOn_body (inBody body (by simp [bodies])))
    | loop body =>
      rw [part]
      apply Part.drawsOn_following
      split
      · exact Emit.drawsOn_loop (drawsOn_body (inBody body (by simp [bodies])))
      · intro pc code hcode
        cases hcode
    | branch condition thenBody elseBody =>
      rw [part]
      apply Part.drawsOn_following
      apply Emit.drawsOn_branch (drawsOn_body (inBody thenBody (by simp [bodies])))
      exact drawsOn_given (inBody elseBody (by simp [bodies]))
    | alternative branches =>
      rw [part]
      exact Part.drawsOn_following
        (Emit.drawsOn_select (inBranches branches rfl) (by simp) Emit.drawsOn_nothing)
    | waitAny branches timeout onTimeout =>
      rw [part]
      apply Part.drawsOn_following
      apply Emit.drawsOn_waitAny (inBranches branches rfl)
      · rintro x rfl
        exact h _ (by simp [mentions])
      · exact drawsOn_given (inBody onTimeout (by simp [bodies]))

end Statement

/-- The program of a flow draws on what the flow mentions. -/
theorem FlowDefinition.drawsOn_compile {d : FlowDefinition} {program : Program}
    (h : d.compile = .ok program) {pc : Nat} {instr : Instr} (hi : program.get? pc = some instr) :
    instr.DrawsOn (· ∈ Statement.mentionsIn d.body) := by
  obtain ⟨code, hcode, heq⟩ := bind_eq_ok.1 h
  obtain rfl := Except.ok.inj heq
  have found : instr ∈ code ++ [Instr.finish] := by
    apply List.mem_of_getElem? (i := pc)
    simpa [Program.get?] using hi
  rcases List.mem_append.1 found with inCode | last
  · have each (s : Statement) (hs : s ∈ d.body) :
        (s.part d.name).DrawsOn (· ∈ Statement.mentionsIn d.body) :=
      Statement.drawsOn_part s fun _ hm => Statement.mentions_subset_mentionsIn hs hm
    exact Statement.drawsOn_body each 0 code hcode _ inCode
  · obtain rfl := List.mem_singleton.1 last
    trivial

end Dialogue
