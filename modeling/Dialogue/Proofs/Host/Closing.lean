import Dialogue.Proofs.Host.Discarding

/-!
# What observers are told of the end of a session

Observers are told when a session is opened, and they are told once when it is closed, be it that a
caller has destroyed it or that the callers have gone. A session whose turn was fatal is not closed:
it is just not run any more. Observers are told of its beginning but never of its end, no matter
whether a caller destroys it later.

## Main definitions

* `Dealings.openings`, `Dealings.closings` — how often observers have been told

## Main results

* `Traffic.closed_once_iff_fine` — which sessions that have ended observers know to be closed
* `Traffic.never_closed` — one that has ended without their knowing
-/

namespace Dialogue

/-- Whether observers are told that a session is opened. -/
def Notice.isOpening : Notice → Bool
  | .sessionOpened _ => true
  | _ => false

/-- Whether observers are told that a session is closed. -/
def Notice.isClosing : Notice → Bool
  | .sessionClosed _ => true
  | _ => false

namespace Dealings

/-- How often observers have been told that the session is opened. -/
def openings (d : Dealings) : Nat := d.told.countP Notice.isOpening

/-- How often observers have been told that the session is closed. -/
def closings (d : Dealings) : Nat := d.told.countP Notice.isClosing

theorem openings_eq (d : Dealings) :
    d.openings = (d.told.filter Notice.isOfSession).countP Notice.isOpening := by
  rw [openings, List.countP_filter]
  congr 1
  funext n
  cases n <;> rfl

theorem closings_eq (d : Dealings) :
    d.closings = (d.told.filter Notice.isOfSession).countP Notice.isClosing := by
  rw [closings, List.countP_filter]
  congr 1
  funext n
  cases n <;> rfl

end Dealings

namespace Observed

variable {r? : Option Resident} {d : Dealings}

theorem openings_eq_one (h : Observed r? d) : d.openings = 1 := by
  obtain ⟨flows, ⟨-, told⟩ | ⟨-, -, reason, told⟩⟩ := h.told
  · rw [d.openings_eq, told]
    rfl
  · rw [d.openings_eq, told]
    rfl

theorem exists_opened (h : Observed r? d) : ∃ flows, .sessionOpened flows ∈ d.told := by
  obtain ⟨flows, ⟨-, told⟩ | ⟨-, -, reason, told⟩⟩ := h.told
  all_goals
    refine ⟨flows, List.mem_of_mem_filter (p := Notice.isOfSession) ?_⟩
    rw [told]
    exact List.mem_cons_self

theorem closings_le_one (h : Observed r? d) : d.closings ≤ 1 := by
  obtain ⟨flows, ⟨-, told⟩ | ⟨-, -, reason, told⟩⟩ := h.told
  · rw [d.closings_eq, told]
    exact Nat.zero_le 1
  · rw [d.closings_eq, told]
    exact Nat.le_refl 1

/-- While a session is run, it has not been closed, and neither has one with a fatal turn. -/
theorem closings_eq_zero (h : Observed r? d) (left : Running r? ∨ d.fatal?.isSome) :
    d.closings = 0 := by
  obtain ⟨flows, ⟨-, told⟩ | ⟨stopped, fine, -⟩⟩ := h.told
  · rw [d.closings_eq, told]
    rfl
  · rcases left with runs | poisoned
    · exact absurd runs stopped
    · rw [fine] at poisoned
      cases poisoned

/-- A session that is not run any more has been closed if no turn was fatal. -/
theorem closings_eq_one (h : Observed r? d) (stopped : ¬ Running r?) (fine : d.fatal? = none) :
    d.closings = 1 := by
  obtain ⟨flows, ⟨left, -⟩ | ⟨-, -, reason, told⟩⟩ := h.told
  · simp [stopped, fine] at left
  · rw [d.closings_eq, told]
    rfl

end Observed

namespace Traffic

variable {w : Traffic} {n : Nat}

theorem Orderly.opened_of_told (o : w.Orderly) {notice : Notice}
    (told : notice ∈ (w.dealings n).told) : n < w.host.opened :=
  Nat.lt_of_not_le fun before => by
    rw [(o.unopened n before).told] at told
    cases told

/-- A session that observers have been told of is opened once, and closed once at most. It is not
closed as long as it is run. Once it is not run any more it has been closed exactly if no turn of it
was fatal, the first one included. -/
theorem closed_once_iff_fine (reached : w.Reached) {flows : List String}
    (told : .sessionOpened flows ∈ (w.dealings n).told) :
    (w.dealings n).openings = 1 ∧ (w.dealings n).closings ≤ 1 ∧
      (w.Runs n → (w.dealings n).closings = 0) ∧
      (¬ w.Runs n → ((w.dealings n).closings = 1 ↔
        ∀ x ∈ (w.dealings n).turns, x.2.isFatal = false)) := by
  have observed := reached.orderly.observed n (reached.orderly.opened_of_told told)
  refine ⟨observed.openings_eq_one, observed.closings_le_one,
    fun runs => observed.closings_eq_zero (.inl runs), fun stopped => ?_⟩
  rw [← Dealings.fatal?_eq_none_iff]
  refine ⟨fun closed => ?_, observed.closings_eq_one stopped⟩
  rw [← Option.not_isSome_iff_eq_none]
  intro poisoned
  rw [observed.closings_eq_zero (.inr poisoned)] at closed
  cases closed

/-- A session is destroyed before a turn is fatal. Observers are told so once. -/
theorem closed_once_iff_fine_listening : ∃ library,
    FlowLibrary.ofDefinitions Vocabulary.standard loopingFlows = .ok library ∧
      ∃ w : Traffic, w.Reached ∧ (∃ flows, .sessionOpened flows ∈ (w.dealings 0).told) ∧
        ¬ w.Runs 0 ∧ (w.dealings 0).openings = 1 ∧ (w.dealings 0).closings = 1 := by
  -- The host is run on fixed flows, and what it does there is told by the steps of the traffic.
  have run : (FlowLibrary.ofDefinitions Vocabulary.standard loopingFlows).toOption.any
      (fun library => ((impatient library).host.create ["listener"] ∅).toOption.any fun x =>
        !x.1.isFatal && (x.2.destroy 0).toOption.any fun h => !h.residents.contains 0) = true := by
    decide +kernel
  obtain ⟨library, loaded, run⟩ := exists_of_toOption_any run
  obtain ⟨⟨t, h⟩, created, run⟩ := exists_of_toOption_any run
  obtain ⟨fine, run⟩ := (Bool.and_eq_true ..).mp run
  obtain ⟨h', destroyed, gone⟩ := exists_of_toOption_any run
  obtain ⟨w, reached, rfl, dealings⟩ := exists_dealings
    ((reached_impatient library).create rfl created)
  have dealings : w.dealings 0 = ⟨!t.isFatal, false, [], [(.activation, t)], _⟩ := dealings
  have found : w.lookUp 0 = .ok () := by rw [lookUp, dealings, if_pos fine]
  obtain ⟨w', reached', rfl, dealings'⟩ := exists_dealings
    (reached.destroy found (by rw [dealings]) destroyed)
  have turns : (w'.dealings 0).turns = [(.activation, t)] := by rw [dealings', dealings]
  -- Once it has been destroyed, the session is not among the residents.
  have stopped : ¬ w'.Runs 0 := by
    rintro ⟨r, resident, -⟩
    simp [Table.contains, resident] at gone
  have opened := reached'.orderly.opened_of_turn (turns ▸ List.mem_singleton_self _)
  obtain ⟨flows, told⟩ := (reached'.orderly.observed 0 opened).exists_opened
  obtain ⟨once, -, -, closed⟩ := closed_once_iff_fine reached' told
  refine ⟨library, loaded, w', reached', ⟨flows, told⟩, stopped, once, (closed stopped).2 ?_⟩
  simpa [turns] using fine

/-- An event poisons a session. The session is not run any more, and no call is in progress, but
observers have not been told that it has been closed. -/
theorem never_closed : ∃ library,
    FlowLibrary.ofDefinitions Vocabulary.standard loopingFlows = .ok library ∧
      ∃ w : Traffic, w.Reached ∧ (∃ flows, .sessionOpened flows ∈ (w.dealings 0).told) ∧
        (w.dealings 0).visits = [] ∧ ¬ w.Runs 0 ∧ (w.dealings 0).closings = 0 := by
  obtain ⟨library, loaded, w, reached, t, turn, fatal, returned⟩ := exists_poisoned
  have orderly := reached.orderly
  have observed := orderly.observed 0 (orderly.opened_of_turn turn)
  have poisoned : (w.dealings 0).fatal?.isSome := by rw [observed.fatal?_eq turn fatal]; rfl
  exact ⟨library, loaded, w, reached, observed.exists_opened, returned,
    orderly.not_runs turn fatal, observed.closings_eq_zero (.inr poisoned)⟩

end Traffic

end Dialogue
