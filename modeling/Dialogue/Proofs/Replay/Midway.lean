import Dialogue.Proofs.Replay.Firing
import Dialogue.Proofs.Session.Conduct

/-!
# A step of a replay in the making

What a replay does in a step is one thing after the other: it takes an input in, it answers one
action, or it writes one turn down and takes up what the session has asked for by then. The turns
that come of this are written down in the order in which they come, and the requests that are taken
up together are answered before the next turn is written down.

## Main definitions

* `Replay.Cue`, `Replay.follow` — what a replay is told to do
* `Replay.Midway`, `Replay.Midway.Goes`, `Replay.Midway.Stops` — a replay in the middle of a step,
  how the step goes on, and how it ends
* `Replay.Midway.Course`, `Replay.Midway.Leads` — a part of a step, and the rest of it

## Main results

* `Replay.leads_follow` — what a replay does is done in this way
* `Replay.Midway.Leads.exists_course` — a step goes on up to its end
* `Replay.Midway.Leads.of_course` — it cannot be done in another way
-/

namespace Dialogue

namespace Replay

/-! ## Inputs -/

/-- What a replay gives to its session. -/
inductive Input where
  | start (mainFlows : List String)
  | submit (e : Event)
  | fire (now : Instant)

namespace Input

/-- The operation by which the session takes an input in. -/
def operation : Input → Operation
  | start flows => .start flows
  | submit e => .submit e
  | fire now => .fireTimers now

/-- What comes of an input. -/
def give (s : Session) : Input → Except SessionError (Turn × Session)
  | start flows => s.start flows
  | submit e => s.submit e
  | fire now => s.fireTimers now

theorem toOption_give (s : Session) (i : Input) :
    (i.give s).toOption = s.perform? i.operation := by
  cases i <;> rfl

end Input

/-- What a step has still to take in. -/
inductive Agenda where
  /-- Nothing is left. -/
  | nothing
  /-- One input is left. -/
  | input (i : Input)
  /-- The timers have to be fired that are due until an instant. -/
  | wait (target : Instant)
  /-- A wait would end after the last instant. -/
  | beyond (d : Duration)

/-- The next input, and what is left after it. -/
def Agenda.next? (s : Session) : Agenda → Option (Input × Agenda)
  | .nothing | .beyond _ => none
  | .input i => some (i, .nothing)
  | .wait target =>
    match s.nextDeadline? with
    | none => some (.fire target, .nothing)
    | some deadline =>
      if target < deadline then some (.fire target, .nothing)
      else some (.fire deadline, .wait target)

/-! ## One thing after the other -/

/-- What a step of a script has to take in. -/
def Agenda.ofStep (s : Session) : ScriptStep → Agenda
  | .say text => .input (.submit (Event.userSaid text))
  | .raise e => .input (.submit e)
  | .wait d =>
    match s.clock.add? d with
    | none => .beyond d
    | some target => .wait target

/-- The line by which a step of a script is written down. -/
def heading : ScriptStep → String
  | .say text => "> " ++ text
  | .raise e => "> [" ++ e.display ++ "]"
  | .wait d => "> (wait " ++ d.secondsText ++ ")"

/-- A replay in the middle of a step. -/
structure Midway where
  /-- The replay. -/
  replay : Replay
  /-- What has still to be taken in. -/
  agenda : Agenda
  /-- The turns that have not been written down, oldest first. -/
  unwritten : List Turn
  /-- The requests that have been taken up and not been answered. -/
  unanswered : List ActionRequest

namespace Midway

/-- The replay when a turn has been written down and the requests have been taken up. -/
def takenUp (r : Replay) (t : Turn) : Replay :=
  { r.print t with session := (r.print t).session.takeRequests.2 }

/-- How a step goes on, and the turns that come of it. -/
inductive Goes : Midway → List Turn → Midway → Prop
  /-- The session takes an input in. -/
  | takes {r agenda i later t session} (next : agenda.next? r.session = some (i, later))
    (given : i.give r.session = .ok (t, session)) :
    Goes ⟨r, agenda, [], []⟩ [t] ⟨{ r with session }, later, [t], []⟩
  /-- A turn is written down, and requests are taken up. -/
  | writes {r agenda t rest} (h : ¬ t.isFatal = true) :
    Goes ⟨r, agenda, t :: rest, []⟩ []
      ⟨takenUp r t, agenda, rest, (r.print t).session.takeRequests.1⟩
  /-- An action is run and its result is taken in. -/
  | answers {r agenda turns request rest t session}
    (completed : (r.elapse request).session.completeCall request.call (r.answerTo request).result =
      .ok (t, session)) :
    Goes ⟨r, agenda, turns, request :: rest⟩ [t]
      ⟨{ r.elapse request with session }, agenda, turns ++ [t], rest⟩

/-- How a step ends. -/
inductive Stops : Midway → Replay × Option ReplayError → Prop
  /-- Nothing is left to be done. -/
  | done {r} : Stops ⟨r, .nothing, [], []⟩ (r, none)
  /-- A wait would end after the last instant. -/
  | beyond {r d} : Stops ⟨r, .beyond d, [], []⟩ (r, some (.waitOutOfRange d))
  /-- The session refuses an input. -/
  | refused {r agenda i later e} (next : agenda.next? r.session = some (i, later))
    (given : i.give r.session = .error e) : Stops ⟨r, agenda, [], []⟩ (r, some (.session e))
  /-- The turn that is written down was fatal. -/
  | fatal {r agenda t rest} (h : t.isFatal = true) :
    Stops ⟨r, agenda, t :: rest, []⟩ ({ r.print t with isDiscarded := true }, none)
  /-- The session refuses a result. -/
  | unanswered {r agenda turns request rest e}
    (completed : (r.elapse request).session.completeCall request.call (r.answerTo request).result =
      .error e) :
    Stops ⟨r, agenda, turns, request :: rest⟩ (r.elapse request, some (.session e))

/-- A part of a step, and the turns that come of it in order. -/
inductive Course (m : Midway) : List Turn → Midway → Prop
  | refl : Course m [] m
  | tail {ts ts' m' m''} (h : Course m ts m') (goes : m'.Goes ts' m'') : Course m (ts ++ ts') m''

/-- The rest of a step. -/
inductive Leads : Midway → Replay × Option ReplayError → Prop
  | stops {m x} (h : Stops m x) : Leads m x
  | goes {m ts m' x} (h : m.Goes ts m') (rest : Leads m' x) : Leads m x

variable {m m' m'' : Midway} {ts ts' : List Turn} {x y : Replay × Option ReplayError}

theorem Course.single (h : m.Goes ts m') : m.Course ts m' := .tail .refl h

theorem Course.trans (h : m.Course ts m') (h' : m'.Course ts' m'') : m.Course (ts ++ ts') m'' := by
  induction h' with
  | refl =>
    rw [List.append_nil]
    exact h
  | tail _ goes ih =>
    rw [← List.append_assoc]
    exact ih.tail goes

theorem Course.leads (h : m.Course ts m') (h' : m'.Leads x) : m.Leads x := by
  induction h with
  | refl => exact h'
  | tail _ goes ih => exact ih (.goes goes h')

/-- The rest of a step goes on until the step ends. -/
theorem Leads.exists_course (h : m.Leads x) : ∃ ts m', m.Course ts m' ∧ m'.Stops x := by
  induction h with
  | stops h => exact ⟨[], _, .refl, h⟩
  | goes h _ ih =>
    obtain ⟨ts, m', course, stops⟩ := ih
    exact ⟨_, m', (Course.single h).trans course, stops⟩

/-! ### There is only one way -/

theorem Goes.unique (h : m.Goes ts m') (h' : m.Goes ts' m'') : ts = ts' ∧ m' = m'' := by
  cases h with
  | takes next given =>
    cases h' with
    | takes next' given' =>
      obtain ⟨rfl, rfl⟩ := Prod.mk.inj (Option.some.inj (next.symm.trans next'))
      obtain ⟨rfl, rfl⟩ := Prod.mk.inj (Except.ok.inj (given.symm.trans given'))
      exact ⟨rfl, rfl⟩
  | writes fine =>
    cases h' with
    | writes => exact ⟨rfl, rfl⟩
  | answers completed =>
    cases h' with
    | answers completed' =>
      obtain ⟨rfl, rfl⟩ := Prod.mk.inj (Except.ok.inj (completed.symm.trans completed'))
      exact ⟨rfl, rfl⟩

theorem Stops.not_goes (h : m.Stops x) (h' : m.Goes ts m') : False := by
  cases h with
  | done => cases h' with
    | takes next => cases next
  | beyond => cases h' with
    | takes next => cases next
  | refused next given => cases h' with
    | takes next' given' =>
      obtain ⟨rfl, rfl⟩ := Prod.mk.inj (Option.some.inj (next.symm.trans next'))
      cases given.symm.trans given'
  | fatal fatal => cases h' with
    | writes fine => exact fine fatal
  | unanswered completed => cases h' with
    | answers completed' => cases completed.symm.trans completed'

theorem Leads.of_goes (h : m.Leads x) (goes : m.Goes ts m') : m'.Leads x := by
  cases h with
  | stops stops => exact (stops.not_goes goes).elim
  | goes goes' rest =>
    obtain ⟨-, rfl⟩ := goes'.unique goes
    exact rest

/-- What is left of a step after a part of it leads to where the step leads. -/
theorem Leads.of_course (h : m.Leads x) (course : m.Course ts m') : m'.Leads x := by
  induction course with
  | refl => exact h
  | tail _ goes ih => exact ih.of_goes goes

/-! ### What a replay does -/

theorem Goes.isDiscarded (h : m.Goes ts m') : m'.replay.isDiscarded = m.replay.isDiscarded := by
  cases h with
  | writes h =>
    rw [takenUp, print_eq]
    rfl
  | _ => rfl

/-- If a turn comes of it, the session has performed an operation. Otherwise a turn that is not
fatal has been written down, and all requests have been taken up. -/
theorem Goes.performs (h : m.Goes ts m') :
    (∃ o t now, (m.replay.session.tick now).perform? o = some (t, m'.replay.session) ∧ ts = [t] ∧
      m'.unwritten = m.unwritten ++ [t]) ∨
    ts = [] ∧ m.unanswered = [] ∧ m'.unanswered = m.replay.session.calls.queue ∧
      m'.replay.session = m.replay.session.takeRequests.2 ∧
        ∃ t, ¬ t.isFatal = true ∧ m.unwritten = t :: m'.unwritten := by
  cases h with
  | @takes r agenda i later t session next given =>
    refine .inl ⟨i.operation, t, r.session.clock, ?_, rfl, rfl⟩
    -- Setting the clock to what it shows does nothing.
    show (r.session.tick _).perform? _ = some (t, session)
    rw [Session.tick_eq_self (Nat.le_refl _), ← i.toOption_give, given]
    rfl
  | @writes r agenda t rest fine =>
    refine .inr ⟨rfl, rfl, ?_, ?_, t, fine, rfl⟩
    · show (r.print t).session.takeRequests.1 = _
      rw [session_print]
      rfl
    · show (r.print t).session.takeRequests.2 = _
      rw [session_print]
  | @answers r agenda turns request rest t session completed =>
    refine .inl ⟨.completeCall request.call (r.answerTo request).result, t,
      (r.elapsed.add (r.answerTo request).delay).nextTick, ?_, rfl, rfl⟩
    show ((r.elapse request).session.completeCall _ _).toOption = some (t, session)
    rw [completed]
    rfl

/-- A turn that has not been written down may be fatal only if the session has a fault. -/
def Honest (m : Midway) : Prop :=
  ∀ t ∈ m.unwritten, t.isFatal = true → m.replay.session.fault.isSome

theorem Goes.honest (goes : m.Goes ts m') (h : m.Honest) : m'.Honest := by
  intro t ht fatal
  rcases goes.performs with ⟨o, t', now, performed, rfl, unwritten⟩ |
    ⟨rfl, -, -, session, t', -, unwritten⟩
  · rw [unwritten] at ht
    rcases List.mem_append.1 ht with before | last
    -- The session would not have taken anything in.
    · have fine := (Session.checkOpen_eq_ok_iff.1 (Session.checkOpen_of_perform? performed)).1
      have fault : (m.replay.session.tick now).fault.isSome := h t before fatal
      rw [fine] at fault
      cases fault
    · obtain rfl := List.mem_singleton.1 last
      rw [← Session.fault_of_perform? performed]
      exact fatal
  · rw [session]
    exact h t (unwritten ▸ List.mem_cons_of_mem t' ht) fatal

theorem Course.isDiscarded (h : m.Course ts m') :
    m'.replay.isDiscarded = m.replay.isDiscarded := by
  induction h with
  | refl => rfl
  | tail _ goes ih => exact goes.isDiscarded.trans ih

variable {r r' : Replay} {agenda : Agenda} {turns : List Turn} {n : Nat}

/-- Requests that have been taken up are answered one after the other. -/
theorem course_answer {requests : List ActionRequest} {a : Except ReplayError (List Turn)}
    (h : r.answer requests = (r', a)) (agenda : Agenda) (turns : List Turn) :
    (∀ ts, a = .ok ts →
      Course ⟨r, agenda, turns, requests⟩ ts ⟨r', agenda, turns ++ ts, []⟩) ∧
    ∀ e, a = .error e → Leads ⟨r, agenda, turns, requests⟩ (r', some e) := by
  induction requests generalizing r r' turns a with
  | nil =>
    obtain ⟨rfl, rfl⟩ := Prod.mk.inj h
    refine ⟨fun ts hts => ?_, by simp⟩
    obtain rfl := Except.ok.inj hts
    rw [List.append_nil]
    exact .refl
  | cons request rest ih =>
    rw [answer_cons] at h
    split at h
    · next e completed =>
      obtain ⟨rfl, rfl⟩ := Prod.mk.inj h
      refine ⟨by simp, fun e' he => ?_⟩
      obtain rfl := Except.error.inj he
      exact .stops (.unanswered completed)
    · next t session completed =>
      -- The first answer is one step, and the others are answered from there.
      have first : Goes ⟨r, agenda, turns, request :: rest⟩ [t] _ := .answers completed
      rcases later : ({ r.elapse request with session } : Replay).answer rest with ⟨r₁, b⟩
      obtain ⟨course, leads⟩ := ih later (turns ++ [t])
      rw [later] at h
      obtain ⟨rfl, rfl⟩ := Prod.mk.inj h
      cases b with
      | error e' =>
        refine ⟨by simp [Except.map], fun e he => ?_⟩
        obtain rfl := Except.error.inj he
        exact .goes first (leads e' rfl)
      | ok ts =>
        refine ⟨fun ts' hts => ?_, by simp [Except.map]⟩
        obtain rfl := Except.ok.inj hts
        have whole := (Course.single first).trans (course ts rfl)
        rw [List.append_assoc] at whole
        exact whole

/-- Turns are written down one after the other. At the end the step goes on, unless it has ended
with the last of them. -/
theorem leads_of_records {y : Replay × Option ReplayError} (h : Records n turns r y)
    (reached : y.2 ≠ some .endless) (agenda : Agenda) :
    (∃ ts, Course ⟨r, agenda, turns, []⟩ ts ⟨y.1, agenda, [], []⟩ ∧ y.2 = none) ∨
    Leads ⟨r, agenda, turns, []⟩ y ∧ (y.2 = none → y.1.isDiscarded = true) := by
  induction h with
  | done n r => exact .inl ⟨[], .refl, rfl⟩
  | endless => exact absurd rfl reached
  | fatal n pending r h => exact .inr ⟨.stops (.fatal h), fun _ => rfl⟩
  | @refused n t pending r r' e h answers =>
    have first : Goes ⟨r, agenda, t :: pending, []⟩ [] _ := .writes h
    have leads := (course_answer answers agenda pending).2 e rfl
    exact .inr ⟨.goes first leads, by simp⟩
  | @more n t pending r r' ts y h answers _ ih =>
    have first : Goes ⟨r, agenda, t :: pending, []⟩ [] _ := .writes h
    have course := (Course.single first).trans ((course_answer answers agenda pending).1 ts rfl)
    rcases ih reached with ⟨ts', rest, ends⟩ | ⟨rest, ends⟩
    · exact .inl ⟨_, course.trans rest, ends⟩
    · exact .inr ⟨course.leads rest, ends⟩

/-- An input is taken in, with all that follows from it. -/
theorem leads_of_record {i : Input} {later : Agenda} {y : Replay × Option ReplayError}
    (next : agenda.next? r.session = some (i, later)) (h : r.record (i.give r.session) = y)
    (reached : y.2 ≠ some .endless) :
    (∃ ts, Course ⟨r, agenda, [], []⟩ ts ⟨y.1, later, [], []⟩ ∧ y.2 = none) ∨
    Leads ⟨r, agenda, [], []⟩ y ∧ (y.2 = none → y.1.isDiscarded = true) := by
  cases given : i.give r.session with
  | error e =>
    rw [given] at h
    obtain rfl := h
    exact .inr ⟨.stops (.refused next given), fun none => by cases none⟩
  | ok p =>
    obtain ⟨t, session⟩ := p
    have first : Goes ⟨r, agenda, [], []⟩ [t] _ := .takes next given
    rw [given] at h
    have recorded : Records r.patience [t] { r with session } y := h ▸ records ..
    rcases leads_of_records recorded reached later with ⟨ts, course, ends⟩ | ⟨leads, ends⟩
    · exact .inl ⟨_, (Course.single first).trans course, ends⟩
    · exact .inr ⟨.goes first leads, ends⟩

/-- An input that is the last one of a step. -/
theorem leads_of_last {i : Input} {y : Replay × Option ReplayError}
    (next : agenda.next? r.session = some (i, .nothing)) (h : r.record (i.give r.session) = y)
    (reached : y.2 ≠ some .endless) : Leads ⟨r, agenda, [], []⟩ y := by
  rcases leads_of_record next h reached with ⟨ts, course, none⟩ | ⟨leads, -⟩
  · obtain ⟨r', o⟩ := y
    obtain rfl : o = .none := none
    exact course.leads (.stops .done)
  · exact leads

end Midway

/-! ## Steps -/

/-- What a replay is told to do. -/
inductive Cue where
  /-- Starting the main flows. -/
  | start (mainFlows : List String)
  /-- Playing a step. -/
  | play (s : ScriptStep)

/-- A replay does what it is told. -/
def follow (r : Replay) : Cue → Replay × Option ReplayError
  | .start flows => r.start flows
  | .play s => r.step s

/-- The beginning of a step. -/
def begin (r : Replay) : Cue → Midway
  | .start flows => ⟨r, .input (.start flows), [], []⟩
  | .play s =>
    if r.isDiscarded then ⟨r, .nothing, [], []⟩
    else ⟨r.note (heading s), .ofStep r.session s, [], []⟩

variable {r : Replay}

theorem begin_of_discarded (discarded : r.isDiscarded = true) (s : ScriptStep) :
    r.begin (.play s) = ⟨r, .nothing, [], []⟩ := if_pos discarded

theorem begin_of_live (live : r.isDiscarded = false) (s : ScriptStep) :
    r.begin (.play s) = ⟨r.note (heading s), .ofStep r.session s, [], []⟩ :=
  if_neg (by simp [live])

/-- At its beginning, a step has nothing but inputs to take in, and there are some unless the
session has been discarded. -/
theorem begin_spec (r : Replay) (c : Cue) : ∃ transcript agenda,
    r.begin c = ⟨{ r with transcript }, agenda, [], []⟩ ∧
      (agenda = .nothing → r.isDiscarded = true) := by
  cases c with
  | start flows => exact ⟨r.transcript, _, rfl, fun same => by cases same⟩
  | play s =>
    by_cases discarded : r.isDiscarded = true
    · exact ⟨r.transcript, _, begin_of_discarded discarded s, fun _ => discarded⟩
    · refine ⟨_, _, begin_of_live (Bool.eq_false_iff.2 discarded) s, fun same => ?_⟩
      unfold Agenda.ofStep at same
      split at same
      · cases same
      · cases same
      · split at same <;> cases same

variable {target : Instant} {n : Nat}

/-- A wait until an instant. -/
theorem leads_waitUntil (reached : (waitUntil target n r).2 ≠ some .endless)
    (live : r.isDiscarded = false) :
    Midway.Leads ⟨r, .wait target, [], []⟩ (waitUntil target n r) := by
  have fired := fires target n r
  unfold waitUntil at reached ⊢
  generalize fireUntil target n r = y, firingsUntil target n r = fs at fired reached ⊢
  induction fired with
  | @done n r h =>
    have last : (Agenda.wait target).next? r.session = some (.fire target, .nothing) := by
      unfold Agenda.next?
      cases next : r.session.nextDeadline? with
      | none => rfl
      | some deadline =>
        have stops := stops_of_not_due h next
        rw [live, Bool.or_false, decide_eq_true_iff] at stops
        exact if_pos stops
    have arrives : arrive target r = r.record (r.session.fireTimers target) :=
      if_neg (by simp [live])
    exact Midway.leads_of_last last arrives.symm reached
  | endless => exact absurd rfl reached
  | @fails n r deadline r' e due fired =>
    have next : (Agenda.wait target).next? r.session = some (.fire deadline, .wait target) := by
      simp only [Agenda.next?, due.next]
      exact if_neg (Nat.not_lt_of_le due.le)
    rcases Midway.leads_of_record next fired reached with ⟨-, -, none⟩ | ⟨leads, -⟩
    · cases none
    · exact leads
  | @more n r deadline r' fs y due fired rest ih =>
    have next : (Agenda.wait target).next? r.session = some (.fire deadline, .wait target) := by
      simp only [Agenda.next?, due.next]
      exact if_neg (Nat.not_lt_of_le due.le)
    rcases Midway.leads_of_record next fired (by simp) with ⟨ts, course, -⟩ | ⟨leads, discarded⟩
    · exact course.leads (ih (course.isDiscarded.trans live) reached)
    -- Once the session has been discarded, nothing is fired any more.
    · have discarded : r'.isDiscarded = true := discarded rfl
      have same : y = (r', none) :=
        rest.fireUntil_eq.symm.trans
          (Fires.done _ fun _ due => absurd (due.live.symm.trans discarded) nofun).fireUntil_eq
      have ends : andThen (arrive target) y = (r', none) := by
        rw [same]
        exact if_pos discarded
      rw [ends]
      exact leads

theorem leads_wait (d : Duration) (ends : (r.wait d).2 ≠ some .endless)
    (live : r.isDiscarded = false) :
    Midway.Leads ⟨r, .ofStep r.session (.wait d), [], []⟩ (r.wait d) := by
  rw [wait_eq] at ends ⊢
  unfold Agenda.ofStep
  dsimp only
  cases sum : r.session.clock.add? d with
  | none => exact .stops .beyond
  | some target =>
    rw [sum] at ends
    exact leads_waitUntil ends live

/-- What a replay does that comes to an end is done one thing after the other. -/
theorem leads_follow (r : Replay) (c : Cue) (ends : (r.follow c).2 ≠ some .endless) :
    (r.begin c).Leads (r.follow c) := by
  cases c with
  | start flows => exact Midway.leads_of_last rfl rfl ends
  | play s =>
    cases discarded : r.isDiscarded with
    | true =>
      have nothing : r.follow (.play s) = (r, none) := if_pos discarded
      rw [begin_of_discarded discarded, nothing]
      exact .stops .done
    | false =>
      -- Every script line is noted, and then it is an input or a wait.
      have live : ¬ r.isDiscarded = true := by simp [discarded]
      rw [begin_of_live discarded]
      cases s with
      | say text =>
        have plays : r.follow (.play (.say text)) = (r.note (heading (.say text))).record
            (r.session.submit (Event.userSaid text)) := if_neg live
        rw [plays] at ends ⊢
        exact Midway.leads_of_last rfl rfl ends
      | raise e =>
        have plays : r.follow (.play (.raise e)) =
            (r.note (heading (.raise e))).record (r.session.submit e) := if_neg live
        rw [plays] at ends ⊢
        exact Midway.leads_of_last rfl rfl ends
      | wait d =>
        have plays : r.follow (.play (.wait d)) = (r.note (heading (.wait d))).wait d := if_neg live
        rw [plays] at ends ⊢
        exact leads_wait d ends discarded

end Replay

end Dialogue
