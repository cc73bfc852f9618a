import Dialogue.Proofs.Replay.Midway

/-!
# How a replay reports a fatal turn

A fatal turn poisons the session: it takes nothing in any more. The turn may have come of an action,
and others may have been asked for together with it. A replay does not look at a turn before it is
to be written down, so until then it goes on with what has been asked for. If there is something
left to be answered, the poisoned session refuses the result, and the replay fails with the fault of
the session; neither the fatal turn nor the turns in front of it are written down then. The fatal
turn has been overtaken. Otherwise it is written down as the last one, after all turns that have
come of the step.

## Main definitions

* `Replay.Midway.IsOvertaken` — something is left to be answered before the last turn is written
  down
* `Replay.Midway.Poisoned` — a fatal turn has come, and has not been written down

## Main results

* `Replay.Midway.Poisoned.leads` — what becomes of a fatal turn
* `Replay.fatal_turn_lost_iff_overtaken` — a replay fails with the fault of its session if and only
  if a fatal turn is overtaken
* `Replay.fatal_turn_lost` — that happens if an action is answered after the one that was fatal
-/

namespace Dialogue

namespace Replay

/-- The lines of turns, one after the other. -/
def linesOf (isJson : Bool) (ts : List Turn) : Array String :=
  (ts.flatMap (turnLines isJson)).toArray

theorem linesOf_append (isJson : Bool) (ts ts' : List Turn) :
    linesOf isJson (ts ++ ts') = linesOf isJson ts ++ linesOf isJson ts' := by
  simp [linesOf]

theorem transcript_print (r : Replay) (t : Turn) :
    (r.print t).transcript = r.transcript ++ linesOf r.isJson [t] := by
  rw [print_eq]
  simp [retold, linesOf]

namespace Midway

variable {m m' : Midway} {ts : List Turn} {x : Replay × Option ReplayError}
  {t : Turn} {front : List Turn} {fault : SessionError}

/-! ## What is written down -/

theorem Goes.isJson (goes : m.Goes ts m') : m'.replay.isJson = m.replay.isJson := by
  cases goes with
  | writes =>
    rw [takenUp, print_eq]
    rfl
  | _ => rfl

/-- What has been written down, and what is still to be written down, is what was so before and the
turns that have come. -/
theorem Goes.lines (goes : m.Goes ts m') :
    m'.replay.transcript ++ linesOf m'.replay.isJson m'.unwritten =
      m.replay.transcript ++ linesOf m.replay.isJson (m.unwritten ++ ts) := by
  cases goes with
  | takes => rfl
  | @writes r agenda t rest fine =>
    have told : (takenUp r t).transcript = r.transcript ++ linesOf r.isJson [t] :=
      transcript_print r t
    have isJson : (takenUp r t).isJson = r.isJson :=
      (@Goes.writes r agenda t rest fine).isJson
    show (takenUp r t).transcript ++ linesOf (takenUp r t).isJson rest = _
    rw [told, isJson, Array.append_assoc, ← linesOf_append, List.append_nil]
    rfl
  | answers => rfl

theorem Course.lines (h : m.Course ts m') : m'.replay.isJson = m.replay.isJson ∧
    m'.replay.transcript ++ linesOf m'.replay.isJson m'.unwritten =
      m.replay.transcript ++ linesOf m.replay.isJson (m.unwritten ++ ts) := by
  induction h with
  | refl => exact ⟨rfl, by rw [List.append_nil]⟩
  | tail _ goes ih =>
    refine ⟨goes.isJson.trans ih.1, goes.lines.trans ?_⟩
    rw [linesOf_append, ← Array.append_assoc, ih.2, ih.1, Array.append_assoc, ← linesOf_append,
      List.append_assoc]

/-! ## Fatal turns -/

/-- Something has been asked for that will be answered before the last turn is written down:
requests have been taken up, or the session has more of them and there are other turns to be written
down first. -/
def IsOvertaken (m : Midway) : Prop :=
  m.unanswered ≠ [] ∨ 1 < m.unwritten.length ∧ m.replay.session.calls.queue ≠ []

/-- A fatal turn is the last one to be written down, and the only one that is fatal. -/
structure Poisoned (m : Midway) (front : List Turn) (t : Turn) (fault : SessionError) : Prop where
  unwritten : m.unwritten = front ++ [t]
  fine : ∀ u ∈ front, ¬ u.isFatal = true
  turn : t.fault = some fault
  session : m.replay.session.fault = some fault

theorem Poisoned.isFatal (h : m.Poisoned front t fault) : t.isFatal = true := by
  rw [Turn.isFatal, h.turn]
  rfl

/-- A session that has a fault performs nothing. -/
theorem Poisoned.not_performs (h : m.Poisoned front t fault) {o : Operation} {now : Instant}
    {p : Turn × Session} (performed : (m.replay.session.tick now).perform? o = some p) : False := by
  have fine := (Session.checkOpen_eq_ok_iff.1 (Session.checkOpen_of_perform? performed)).1
  have fine : m.replay.session.fault = none := fine
  rw [h.session] at fine
  cases fine

/-- A fatal turn is not written down as long as the step goes on. Other turns are, and with the
first of them the requests of the session are taken up. Whether the fatal turn is overtaken has been
settled before. -/
theorem Poisoned.goes (h : m.Poisoned front t fault) (goes : m.Goes ts m') :
    ts = [] ∧ (∃ rest, m'.Poisoned rest t fault) ∧ (m'.IsOvertaken ↔ m.IsOvertaken) := by
  rcases goes.performs with ⟨o, t', now, performed, -⟩ |
    ⟨rfl, answered, takenUp, session, u, fine, unwritten⟩
  · exact (h.not_performs performed).elim
  · have written := h.unwritten.symm.trans unwritten
    cases front with
    | nil =>
      obtain ⟨rfl, -⟩ := List.cons.inj written
      exact absurd h.isFatal fine
    | cons v rest =>
      obtain ⟨rfl, others⟩ := List.cons.inj written
      have queue : m'.replay.session.calls.queue = [] := by
        rw [session]
        rfl
      refine ⟨rfl, ⟨rest, others.symm, fun w hw => h.fine w (List.mem_cons_of_mem v hw), h.turn,
        ?_⟩, ?_⟩
      · rw [session]
        exact h.session
      · simp [IsOvertaken, answered, takenUp, queue, h.unwritten]

theorem Course.honest (h : m.Course ts m') (honest : m.Honest) : m'.Honest := by
  induction h with
  | refl => exact honest
  | tail _ goes ih => exact goes.honest ih

/-- After a fatal turn has come, it is the last one to be written down. -/
theorem Course.poisoned (h : m.Course (ts ++ [t]) m') (honest : m.Honest)
    (fatal : t.fault = some fault) : ∃ front, m'.Poisoned front t fault := by
  generalize same : ts ++ [t] = us at h
  induction h with
  | refl => cases List.append_eq_nil_iff.1 same |>.2
  | @tail us vs m₁ m₂ before goes ih =>
    rcases goes.performs with ⟨o, t', now, performed, rfl, unwritten⟩ | ⟨rfl, -⟩
    · obtain ⟨rfl, last⟩ := List.append_inj' same rfl
      obtain rfl := (List.cons.inj last).1
      have fine := (Session.checkOpen_eq_ok_iff.1 (Session.checkOpen_of_perform? performed)).1
      refine ⟨m₁.unwritten, unwritten, fun u hu isFatal => ?_, fatal, ?_⟩
      -- The session would have had a fault before.
      · have fault := before.honest honest u hu isFatal
        have fine : m₁.replay.session.fault = none := fine
        rw [fine] at fault
        cases fault
      · rw [← Session.fault_of_perform? performed, fatal]
    · obtain ⟨front, poisoned⟩ := ih (same.trans (List.append_nil us))
      exact (poisoned.goes goes).2.1

/-- What becomes of a fatal turn: the replay fails with the fault of the session if the turn is
overtaken, and otherwise all turns are written down. -/
theorem Poisoned.leads (h : m.Poisoned front t fault) (leads : m.Leads x) :
    x.1.session.fault = some fault ∧
      (m.IsOvertaken → x.2 = some (.session fault) ∧ x.1.isDiscarded = m.replay.isDiscarded) ∧
      (¬ m.IsOvertaken → x.2 = none ∧ x.1.isDiscarded = true ∧
        x.1.transcript = m.replay.transcript ++ linesOf m.replay.isJson m.unwritten) := by
  induction leads generalizing front with
  | @stops m x stops =>
    cases stops with
    | done => cases List.append_eq_nil_iff.1 h.unwritten.symm |>.2
    | beyond => cases List.append_eq_nil_iff.1 h.unwritten.symm |>.2
    | refused => cases List.append_eq_nil_iff.1 h.unwritten.symm |>.2
    | @fatal r agenda u rest isFatal =>
      -- The turns in front of the fatal one are fine, and there is nothing behind it.
      have last : rest = [] := by
        cases front with
        | nil => exact (List.cons.inj h.unwritten).2
        | cons v others =>
          obtain ⟨rfl, -⟩ := List.cons.inj h.unwritten
          exact absurd isFatal (h.fine u List.mem_cons_self)
      subst last
      refine ⟨?_, fun overtaken => ?_, fun _ => ⟨rfl, rfl, transcript_print r u⟩⟩
      · show (r.print u).session.fault = _
        rw [session_print]
        exact h.session
      · rcases overtaken with asked | ⟨more, -⟩
        · exact absurd rfl asked
        · exact absurd more (Nat.lt_irrefl 1)
    | @unanswered r agenda turns request rest e completed =>
      have refuses : (r.elapse request).session.checkOpen = .error fault := by
        have session : (r.elapse request).session.fault = some fault := h.session
        rw [Session.checkOpen, session]
      have completed' : (r.elapse request).session.completeCall request.call
          (r.answerTo request).result = .error fault := Session.completeCall_of_closed refuses _ _
      obtain rfl := Except.error.inj (completed.symm.trans completed')
      exact ⟨h.session, fun _ => ⟨rfl, rfl⟩, fun not => absurd (.inl (List.cons_ne_nil _ _)) not⟩
  | @goes m ts m' x goes rest ih =>
    obtain ⟨rfl, ⟨others, poisoned⟩, same⟩ := h.goes goes
    obtain ⟨fault, overtaken, reported⟩ := ih poisoned
    rw [same, goes.isDiscarded] at overtaken
    rw [same, goes.lines, List.append_nil] at reported
    exact ⟨fault, overtaken, reported⟩

/-- If no fatal turn comes until a step ends, the session has no fault then, and it has not been
discarded. -/
theorem Leads.fine (leads : m.Leads x) (honest : m.Honest) (fine : m.replay.session.fault = none)
    (never : ∀ ts t m', m.Course (ts ++ [t]) m' → t.fault = none) :
    x.1.session.fault = none ∧ x.1.isDiscarded = m.replay.isDiscarded := by
  induction leads with
  | stops stops =>
    cases stops with
    | @fatal r agenda t rest fatal =>
      have fault : r.session.fault.isSome := honest t List.mem_cons_self fatal
      have fine : r.session.fault = none := fine
      rw [fine] at fault
      cases fault
    | _ => exact ⟨fine, rfl⟩
  | @goes m ts m' x goes _ ih =>
    have fine' : m'.replay.session.fault = none := by
      rcases goes.performs with ⟨o, t, now, performed, rfl, -⟩ | ⟨-, -, -, session, -⟩
      · rw [← Session.fault_of_perform? performed]
        exact never [] t m' (.single goes)
      · rw [session]
        exact fine
    obtain ⟨fault, discarded⟩ := ih (goes.honest honest) fine' fun us t m'' course => by
      have whole := (Course.single goes).trans course
      rw [← List.append_assoc] at whole
      exact never (ts ++ us) t m'' whole
    exact ⟨fault, discarded.trans goes.isDiscarded⟩

end Midway

/-! ## Steps -/

variable {r : Replay} {c : Cue}

theorem honest_begin (r : Replay) (c : Cue) : (r.begin c).Honest := by
  obtain ⟨transcript, agenda, begun, -⟩ := begin_spec r c
  rw [begun]
  exact fun t ht => absurd ht List.not_mem_nil

/-- The lines of the turns of a step are all written down, and the session has been discarded. No
error has come up. -/
structure Reports (r : Replay) (c : Cue) (ts : List Turn) : Prop where
  passes : (r.follow c).2 = none
  isDiscarded : (r.follow c).1.isDiscarded = true
  transcript : (r.follow c).1.transcript = (r.begin c).replay.transcript ++ linesOf r.isJson ts

/-- The session has a fault, and the replay fails with it. -/
def FailsWithFault (r : Replay) (c : Cue) : Prop :=
  ∃ fault, (r.follow c).1.session.fault = some fault ∧ (r.follow c).2 = some (.session fault)

/-- What becomes of a turn that poisons the session in the course of a step. -/
theorem of_fatal_turn (ends : (r.follow c).2 ≠ some .endless) {ts : List Turn} {t : Turn}
    {m : Midway} (course : (r.begin c).Course (ts ++ [t]) m) (fatal : t.isFatal = true) :
    (r.follow c).1.session.fault.isSome ∧ (m.IsOvertaken → r.FailsWithFault c) ∧
      (¬ m.IsOvertaken → r.Reports c (ts ++ [t])) := by
  obtain ⟨fault, poison⟩ := Option.isSome_iff_exists.1 fatal
  obtain ⟨front, poisoned⟩ := course.poisoned (honest_begin r c) poison
  obtain ⟨left, lost, written⟩ := poisoned.leads ((leads_follow r c ends).of_course course)
  rw [course.lines.2] at written
  obtain ⟨transcript, agenda, begun, -⟩ := begin_spec r c
  rw [begun] at written
  refine ⟨by rw [left]; rfl, fun overtaken => ⟨fault, left, (lost overtaken).1⟩, fun not => ?_⟩
  obtain ⟨passes, discarded, lines⟩ := written not
  exact ⟨passes, discarded, by rw [begun]; exact lines⟩

/-- If the session has a fault after a step and had none before, a fatal turn has come. -/
theorem exists_fatal_turn (ends : (r.follow c).2 ≠ some .endless) (fine : r.session.fault = none)
    (fault : (r.follow c).1.session.fault.isSome) :
    ∃ ts t m, (r.begin c).Course (ts ++ [t]) m ∧ t.isFatal = true := by
  by_contra never
  have never : ∀ ts t m, (r.begin c).Course (ts ++ [t]) m → t.fault = none := by
    intro ts t m course
    by_contra fatal
    exact never ⟨ts, t, m, course, Option.isSome_iff_ne_none.2 fatal⟩
  have begun : (r.begin c).replay.session.fault = none := by
    obtain ⟨transcript, agenda, begun, -⟩ := begin_spec r c
    rw [begun]
    exact fine
  have left := ((leads_follow r c ends).fine (honest_begin r c) begun never).1
  rw [left] at fault
  cases fault

/-- A replay does what it is told, and comes to an end. If its session had no fault before, it has
one afterwards if and only if a fatal turn has come meanwhile. The lines of all turns that have
come, up to the fatal one, are then written down, the session is discarded and no error comes up,
unless the fatal turn has been overtaken by something that has been asked for together with it or
before it. If it has been, and only then, the replay fails with the fault of its session. -/
theorem fatal_turn_lost_iff_overtaken (r : Replay) (c : Cue)
    (ends : (r.follow c).2 ≠ some .endless) (fine : r.session.fault = none) :
    ((r.follow c).1.session.fault.isSome ↔
      ∃ ts t m, (r.begin c).Course (ts ++ [t]) m ∧ t.isFatal = true) ∧
    (∀ ts t m, (r.begin c).Course (ts ++ [t]) m → t.isFatal = true →
      (r.Reports c (ts ++ [t]) ↔ ¬ m.IsOvertaken)) ∧
    (r.FailsWithFault c ↔
      ∃ ts t m, (r.begin c).Course (ts ++ [t]) m ∧ t.isFatal = true ∧ m.IsOvertaken) := by
  have conflict {ts : List Turn} (reports : r.Reports c ts) : ¬ r.FailsWithFault c := by
    rintro ⟨fault, -, fails⟩
    rw [reports.passes] at fails
    cases fails
  refine ⟨⟨exists_fatal_turn ends fine, ?_⟩, fun ts t m course fatal => ?_, fun fails => ?_, ?_⟩
  · rintro ⟨ts, t, m, course, fatal⟩
    exact (of_fatal_turn ends course fatal).1
  · obtain ⟨-, lost, written⟩ := of_fatal_turn ends course fatal
    exact ⟨fun reports overtaken => conflict reports (lost overtaken), written⟩
  · obtain ⟨fault, left, -⟩ := id fails
    obtain ⟨ts, t, m, course, fatal⟩ := exists_fatal_turn ends fine (by rw [left]; rfl)
    refine ⟨ts, t, m, course, fatal, ?_⟩
    by_contra not
    exact conflict ((of_fatal_turn ends course fatal).2.2 not) fails
  · rintro ⟨ts, t, m, course, fatal, overtaken⟩
    exact (of_fatal_turn ends course fatal).2.1 overtaken

/-- A flow whose action leads to a turn that does not come to its end, and one that says what its
action returns. -/
def loopingFlows : List FlowDefinition :=
  let render (text : String) (result : Option String) : Statement :=
    .execute "render_utterance" (Table.ofList [("template", .literal (.string text))]) result none
  [⟨"child", [], "", []⟩,
    ⟨"looper", [], "", [render "a" none, .loop [.await "child" ∅ none]]⟩,
    ⟨"speaker", [], "", [render "b" (some "line"),
      .send EventName.botSay (Table.ofList [("text", .var "line")])]⟩]

/-- A replay with the actions that are always there, whose turns may deliver eight events. -/
def impatient (library : FlowLibrary) : Replay :=
  new (Session.new "session" library ⟨8, 100, 10⟩ ∅) builtinActions (.ofNat 30) false 10

/-- If the action that poisons the session is the last one that has been asked for, the fatal turn
is written down behind the other one. -/
theorem fatal_turn_lost_iff_overtaken_looping : ∃ library,
    FlowLibrary.ofDefinitions Vocabulary.standard loopingFlows = .ok library ∧
      let r := impatient library
      let c := Cue.start ["speaker", "looper"]
      (r.follow c).2 ≠ some .endless ∧ r.session.fault = none ∧
        (r.follow c).1.transcript = #["bot > b",
          "!! session discarded: Unreachable state: cascade did not settle within 8 steps"] ∧
        ∃ ts t m, (r.begin c).Course (ts ++ [t]) m ∧ t.isFatal = true ∧ ¬ m.IsOvertaken ∧
          r.Reports c (ts ++ [t]) := by
  have run : (FlowLibrary.ofDefinitions Vocabulary.standard loopingFlows).toOption.any
      (fun library =>
        let x := (impatient library).follow (.start ["speaker", "looper"])
        x.2.isNone && x.1.session.fault.isSome && decide (x.1.transcript = #["bot > b",
          "!! session discarded: Unreachable state: cascade did not settle within 8 steps"])) =
            true := by
    decide +kernel
  obtain ⟨library, loaded, run⟩ := exists_of_toOption_any run
  simp only [Bool.and_eq_true, Option.isNone_iff_eq_none, decide_eq_true_eq] at run
  obtain ⟨⟨passes, fault⟩, transcript⟩ := run
  have ends : ((impatient library).follow (.start ["speaker", "looper"])).2 ≠ some .endless := by
    simp [passes]
  obtain ⟨poisoned, reports, lost⟩ := fatal_turn_lost_iff_overtaken _ _ ends rfl
  obtain ⟨ts, t, m, course, fatal⟩ := poisoned.1 fault
  have written : ¬ m.IsOvertaken := fun overtaken => by
    obtain ⟨e, -, fails⟩ := lost.2 ⟨ts, t, m, course, fatal, overtaken⟩
    rw [passes] at fails
    cases fails
  exact ⟨library, loaded, ends, rfl, transcript, ts, t, m, course, fatal, written,
    (reports ts t m course fatal).2 written⟩

/-- The error of the session with which a replay fails. -/
def refusal? : Option ReplayError → Option SessionError
  | some (.session e) => some e
  | _ => none

theorem of_refusal? {x : Option ReplayError} {e : SessionError} (h : refusal? x = some e) :
    x = some (.session e) := by
  unfold refusal? at h
  split at h
  · rw [Option.some.inj h]
  · cases h

/-- Three actions are asked for at the start, and the result of the second one poisons the session.
What the first one has led to is not written down, and neither is the fatal turn: the replay fails,
because the session refuses the third result. -/
theorem fatal_turn_lost : ∃ library,
    FlowLibrary.ofDefinitions Vocabulary.standard loopingFlows = .ok library ∧
      let fault := SessionError.unreachableState "cascade did not settle within 8 steps"
      let x := (impatient library).follow (.start ["speaker", "looper", "speaker"])
      (impatient library).session.fault = none ∧ x.1.session.fault = some fault ∧
        x.2 = some (.session fault) ∧ x.1.isDiscarded = false ∧ x.1.transcript = #[] := by
  have run : (FlowLibrary.ofDefinitions Vocabulary.standard loopingFlows).toOption.any
      (fun library =>
        let fault := SessionError.unreachableState "cascade did not settle within 8 steps"
        let x := (impatient library).follow (.start ["speaker", "looper", "speaker"])
        decide (x.1.session.fault = some fault) && decide (refusal? x.2 = some fault) &&
          !x.1.isDiscarded && decide (x.1.transcript = #[])) = true := by
    decide +kernel
  obtain ⟨library, loaded, run⟩ := exists_of_toOption_any run
  simp only [Bool.and_eq_true, Bool.not_eq_true', decide_eq_true_eq] at run
  obtain ⟨⟨⟨fault, fails⟩, live⟩, transcript⟩ := run
  exact ⟨library, loaded, rfl, fault, of_refusal? fails, live, transcript⟩

end Replay

end Dialogue
