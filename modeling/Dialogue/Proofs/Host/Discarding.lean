import Dialogue.Action
import Dialogue.Proofs.Host.Sequential

/-!
# How a host discards sessions

A session whose turn was fatal is not run any more. A caller who is answered with the fatal turn
sees to it that the session is not found from then on; a session whose first turn was fatal is never
found at all. Nobody waits for a turn that follows from a timer or a result, though. If such a turn
is fatal, callers go on finding the session, and it goes on counting as one that is known, until a
caller destroys it.

## Main results

* `Traffic.poisoned_forgotten_iff` — which sessions with a fatal turn are not known any more
* `Traffic.poisoned_remembered` — one that still is
-/

namespace Dialogue

/-- If no call is in progress, a session with a fatal turn is known if and only if nobody has been
answered with that turn, and nobody has taken the session away. -/
theorem Listed.isKnown_eq_false_iff {d : Dealings} {c : Cause} (h : Listed d)
    (fatal : d.fatal? = some c) (returned : d.visits = []) :
    d.isKnown = false ↔ c.isAnswered = true ∨ d.isReleased = true := by
  constructor
  · intro unknown
    rcases h.awaited unknown with released | opening | ⟨c', fatal', answered⟩
    · exact .inr released
    · simp [returned] at opening
    · obtain rfl := Option.some.inj (fatal.symm.trans fatal')
      exact .inl answered
  · rintro (answered | released)
    · cases c with
      | activation => exact (h.failed fatal).1
      | event =>
        rw [← Bool.not_eq_true]
        intro known
        have answered := h.poisoned fatal known
        simp [returned] at answered
      | timeout => cases answered
      | result => cases answered
    · exact h.withdrawn released

namespace Traffic

variable {w : Traffic} {n : Nat} {c : Cause} {t : Turn}

theorem lookUp_eq_error_iff :
    w.lookUp n = .error (.sessionNotFound (toString n)) ↔ (w.dealings n).isKnown = false := by
  unfold lookUp
  cases (w.dealings n).isKnown <;> simp

theorem Orderly.opened_of_turn (o : w.Orderly) (mem : (c, t) ∈ (w.dealings n).turns) :
    n < w.host.opened :=
  Nat.lt_of_not_le fun before => by
    rw [(o.unopened n before).turns] at mem
    cases mem

theorem mem_known (opened : n < w.host.opened) : n ∈ w.known ↔ (w.dealings n).isKnown = true := by
  simp [known, opened]

/-- A session with a fatal turn is not run. -/
theorem Orderly.not_runs (o : w.Orderly) (turn : (c, t) ∈ (w.dealings n).turns)
    (fatal : t.isFatal = true) : ¬ w.Runs n := by
  intro runs
  have observed := o.observed n (o.opened_of_turn turn)
  have poisoned := observed.fatal?_eq turn fatal
  rw [observed.fine runs] at poisoned
  cases poisoned

/-- Once a turn of a session has been fatal and all calls about the session have returned, the
session is not run, and it is known no longer if the turn was the answer to a call, or if the
session has been taken away to be closed. Otherwise, that is if a timer or a result has led to the
turn, callers still find it, and it still counts as known. -/
theorem poisoned_forgotten_iff (reached : w.Reached) (turn : (c, t) ∈ (w.dealings n).turns)
    (fatal : t.isFatal = true) (returned : (w.dealings n).visits = []) :
    ¬ w.Runs n ∧
      (n ∉ w.known ↔ c.isAnswered = true ∨ (w.dealings n).isReleased = true) ∧
      (w.lookUp n = .error (.sessionNotFound (toString n)) ↔
        c.isAnswered = true ∨ (w.dealings n).isReleased = true) := by
  have orderly := reached.orderly
  have opened := orderly.opened_of_turn turn
  have poisoned := (orderly.observed n opened).fatal?_eq turn fatal
  have forgotten := (orderly.listed n opened).isKnown_eq_false_iff poisoned returned
  refine ⟨orderly.not_runs turn fatal, ?_, lookUp_eq_error_iff.trans forgotten⟩
  rw [mem_known opened, Bool.not_eq_true, forgotten]

/-- Flows that do not come to an end as soon as an action returns, or as soon as the user says
something. -/
def loopingFlows : List FlowDefinition :=
  [⟨"child", [], "", []⟩,
    ⟨"caller", [], "", [.execute "render_utterance"
      (Table.ofList [("template", .literal (.string "a"))]) none none,
      .loop [.await "child" ∅ none]]⟩,
    ⟨"listener", [], "", [.expect ⟨EventName.userSaid, ∅, ∅, false⟩,
      .loop [.await "child" ∅ none]]⟩]

/-- A host with the actions that are always there, whose turns may deliver eight events. -/
def impatient (library : FlowLibrary) : Traffic :=
  new library builtinActions ⟨8, 100, 10⟩ (.ofNat 30) 10

theorem reached_impatient (library : FlowLibrary) : (impatient library).Reached := .new ..

/-- An event poisons a session, and the caller has been answered. -/
theorem exists_poisoned : ∃ library,
    FlowLibrary.ofDefinitions Vocabulary.standard loopingFlows = .ok library ∧
      ∃ w : Traffic, w.Reached ∧ ∃ t, (.event, t) ∈ (w.dealings 0).turns ∧ t.isFatal = true ∧
        (w.dealings 0).visits = [] := by
  have run : (FlowLibrary.ofDefinitions Vocabulary.standard loopingFlows).toOption.any
      (fun library => ((impatient library).host.create ["listener"] ∅).toOption.any fun x =>
        !x.1.isFatal && (x.2.submit 0 (Event.userSaid "hi")).toOption.any fun y =>
          y.1.isFatal) = true := by
    decide +kernel
  obtain ⟨library, loaded, run⟩ := exists_of_toOption_any run
  obtain ⟨⟨t, h⟩, created, run⟩ := exists_of_toOption_any run
  obtain ⟨fine, run⟩ := (Bool.and_eq_true ..).mp run
  obtain ⟨⟨t', h'⟩, submitted, fatal⟩ := exists_of_toOption_any run
  obtain ⟨w, reached, rfl, dealings⟩ := exists_dealings
    ((reached_impatient library).create rfl created)
  have dealings : w.dealings 0 = ⟨!t.isFatal, false, [], [(.activation, t)], _⟩ := dealings
  have found : w.lookUp 0 = .ok () := by rw [lookUp, dealings, if_pos fine]
  obtain ⟨w', reached', rfl, dealings'⟩ := exists_dealings
    (reached.submit found (by rw [dealings]) submitted)
  exact ⟨library, loaded, w', reached', t', by simp [dealings'], fatal, by rw [dealings']⟩

/-- After that the session is forgotten. -/
theorem poisoned_forgotten_iff_listening : ∃ library,
    FlowLibrary.ofDefinitions Vocabulary.standard loopingFlows = .ok library ∧
      ∃ w : Traffic, w.Reached ∧ (∃ t, (.event, t) ∈ (w.dealings 0).turns ∧ t.isFatal = true) ∧
        (w.dealings 0).visits = [] ∧ ¬ w.Runs 0 ∧ 0 ∉ w.known ∧
        w.lookUp 0 = .error (.sessionNotFound (toString 0)) := by
  obtain ⟨library, loaded, w, reached, t, turn, fatal, returned⟩ := exists_poisoned
  obtain ⟨stopped, uncounted, unknown⟩ := poisoned_forgotten_iff reached turn fatal returned
  exact ⟨library, loaded, w, reached, ⟨t, turn, fatal⟩, returned, stopped,
    uncounted.2 (.inl rfl), unknown.2 (.inl rfl)⟩

/-- The result of an action poisons a session. Callers still find it, and it still counts as known,
although no call is in progress and the session is not run. -/
theorem poisoned_remembered : ∃ library,
    FlowLibrary.ofDefinitions Vocabulary.standard loopingFlows = .ok library ∧
      ∃ w : Traffic, w.Reached ∧ (∃ t, (.result, t) ∈ (w.dealings 0).turns ∧ t.isFatal = true) ∧
        (w.dealings 0).visits = [] ∧ ¬ w.Runs 0 ∧ 0 ∈ w.known ∧ w.lookUp 0 = .ok () := by
  have run : (FlowLibrary.ofDefinitions Vocabulary.standard loopingFlows).toOption.any
      (fun library => ((impatient library).host.create ["caller"] ∅).toOption.any fun x =>
        !x.1.isFatal && (x.2.residents.get? 0).any fun r => !r.isStopped && r.jobs.any fun j =>
          let now := x.2.now.max j.due
          ((Due.result j).give now (r.session.tick now)).toOption.any fun y => y.1.isFatal) =
            true := by
    decide +kernel
  obtain ⟨library, loaded, run⟩ := exists_of_toOption_any run
  obtain ⟨⟨t, h⟩, created, run⟩ := exists_of_toOption_any run
  obtain ⟨fine, run⟩ := (Bool.and_eq_true ..).mp run
  obtain ⟨r, resident, run⟩ := (Option.any_eq_true ..).1 run
  obtain ⟨runs, run⟩ := (Bool.and_eq_true ..).mp run
  obtain ⟨j, job, run⟩ := List.any_eq_true.1 run
  obtain ⟨⟨t', s⟩, given, fatal⟩ := exists_of_toOption_any run
  obtain ⟨w, reached, rfl, dealings⟩ := exists_dealings
    ((reached_impatient library).create rfl created)
  have dealings : w.dealings 0 = ⟨!t.isFatal, false, [], [(.activation, t)], _⟩ := dealings
  -- The host keeps the appointment at which the result of the action is due, and that turn is
  -- fatal.
  let a : Appointment := ⟨j.due, j.order, 0, .result j⟩
  obtain ⟨w', reached', -, dealings'⟩ := exists_dealings
    (reached.step (.keeps (a := a) resident (by simpa using runs) ⟨j, job, rfl⟩ given))
  have dealings' : w'.dealings 0 = _ := dealings'
  have turn : (.result, t') ∈ (w'.dealings 0).turns := by
    rw [dealings']
    exact List.mem_append_right _ List.mem_cons_self
  have returned : (w'.dealings 0).visits = [] := by
    rw [dealings']
    exact congrArg Dealings.visits dealings
  have known : (w'.dealings 0).isKnown = true := by
    rw [dealings']
    exact (congrArg Dealings.isKnown dealings).trans fine
  have orderly := reached'.orderly
  exact ⟨library, loaded, w', reached', ⟨t', turn, fatal⟩, returned, orderly.not_runs turn fatal,
    (mem_known (orderly.opened_of_turn turn)).2 known, by rw [lookUp, if_pos known]⟩

end Traffic

end Dialogue
