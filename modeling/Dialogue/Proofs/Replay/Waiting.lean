import Dialogue.Proofs.Replay.Firing

/-!
# Replays on virtual time

If no action takes any time, the clock of a replay goes on by its waits alone, and it never goes
past a deadline. So every timer fires at its own deadline. Between two steps nothing is left to be
done at the instant that has been reached, which is why a wait may be made in several parts.

## Main definitions

* `Replay.Virtual`, `Replay.Steady` — a replay on virtual time, in a step and between two steps
* `Replay.Reached` — the states of a replay
* `Replay.InOrder` — firings in the order of their deadlines, each at its own

## Main results

* `Replay.Reached.steady` — replays stay on virtual time
* `Replay.Steady.inOrder_firings` — timers fire in order
* `Replay.waits_add_up` — waits add up
-/

namespace Dialogue

/-! ## Actions that take no time -/

/-- An answer that is there at once is not waited for. -/
theorem Answer.delay_within_now (result : Except ActionError Value) (action : String)
    (limit : Duration) : ((now result).within action limit).delay = ⟨0⟩ := by
  have still : Duration.wait ⟨0⟩ = ⟨0⟩ := if_pos (Nat.zero_le _)
  unfold within now
  simp only [still]
  exact congrArg Answer.delay (if_pos (Nat.zero_le _))

/-- The actions that are always there take no time. -/
theorem delay_builtinActions (limit : Duration) (action : String) (params : Params) :
    ((builtinActions.run action params).within action limit).delay = ⟨0⟩ := by
  unfold Registry.run
  split
  · next a found =>
    simp only [builtinActions, Registry.ofActions, List.foldl_cons, List.foldl_nil,
      Registry.register, Table.get?_insert] at found
    split at found
    · obtain rfl := Option.some.inj found
      exact Answer.delay_within_now ..
    · cases found
  · exact Answer.delay_within_now ..

namespace Replay

variable {r r' : Replay} {o : Option ReplayError} {x : Replay × Option ReplayError}
  {target deadline : Instant} {n : Nat}

/-! ## Virtual time -/

/-- A replay on virtual time: the actions take none, so that it only passes by waiting. -/
structure Virtual (r : Replay) : Prop where
  instant : ∀ action params,
    ((r.actions.run action params).within action r.actionTimeout).delay = ⟨0⟩
  elapsed : r.elapsed = .zero
  sound : r.session.Sound
  punctual : r.session.Punctual

/-- While the session takes inputs, every action that has been asked for has been run. -/
def IsAnswered (r : Replay) : Prop :=
  r.isDiscarded = false → r.session.checkOpen = .ok () → r.session.calls.queue = []

/-- A replay on virtual time between two steps. -/
structure Steady (r : Replay) : Prop extends Virtual r where
  answered : r.IsAnswered

theorem Virtual.apply (h : r.Virtual) {o : Operation} (still : ∀ now, o ≠ .elapse now) :
    ({ r with session := r.session.apply o } : Replay).Virtual where
  instant := h.instant
  elapsed := h.elapsed
  sound := Session.sound_apply h.sound o
  punctual := Session.punctual_apply h.sound h.punctual still

theorem Virtual.retold (h : r.Virtual) (transcript : Array String) (patience : Nat) :
    (r.retold transcript patience).Virtual :=
  ⟨h.instant, h.elapsed, h.sound, h.punctual⟩

theorem Steady.retold (h : r.Steady) (transcript : Array String) (patience : Nat) :
    (r.retold transcript patience).Steady :=
  ⟨h.toVirtual.retold transcript patience, h.answered⟩

/-- An action that takes no time leaves the clocks as they are. -/
theorem Virtual.elapse_eq (h : r.Virtual) (request : ActionRequest) : r.elapse request = r := by
  have delay : (r.answerTo request).delay = ⟨0⟩ := h.instant request.action request.params
  have still : (r.elapsed.add (r.answerTo request).delay).nextTick = r.elapsed := by
    rw [delay, h.elapsed]
    rfl
  have clock : r.session.tick r.elapsed = r.session :=
    Session.tick_eq_self (h.elapsed ▸ Nat.zero_le _)
  unfold elapse
  dsimp only
  rw [still, clock]

/-- No time passes while actions are answered. The session refuses an answer only if it takes no
inputs at all. -/
theorem Virtual.answer (h : r.Virtual) {requests : List ActionRequest}
    {x : Except ReplayError (List Turn)} (eq : r.answer requests = (r', x)) :
    r'.Virtual ∧ r'.session.clock = r.session.clock ∧
      ((∃ e, x = .error e) → r'.session.checkOpen ≠ .ok ()) ∧
        (x = .ok [] → requests = [] ∧ r' = r) := by
  induction requests generalizing r x with
  | nil =>
    obtain ⟨rfl, rfl⟩ := Prod.mk.inj eq
    exact ⟨h, rfl, by simp, fun _ => ⟨rfl, rfl⟩⟩
  | cons request rest ih =>
    -- An action takes no time, so the clock stays where it is.
    rw [answer_cons, h.elapse_eq request] at eq
    split at eq
    · next e refused =>
      obtain ⟨rfl, rfl⟩ := Prod.mk.inj eq
      refine ⟨h, rfl, fun _ isOpen => ?_, nofun⟩
      rw [Session.completeCall_eq isOpen] at refused
      cases refused
    · next turn session completed =>
      let o : Operation := .completeCall request.call (r.answerTo request).result
      have applied : r.session.apply o = session := by simp [o, Session.apply, completed]
      have clock : session.clock = r.session.clock := applied ▸ Session.clock_apply h.sound o
      rcases answers : ({ r with session } : Replay).answer rest with ⟨r₁, y⟩
      rw [answers] at eq
      obtain ⟨rfl, rfl⟩ := Prod.mk.inj eq
      obtain ⟨virtual, same, refused, -⟩ := ih (applied ▸ h.apply (o := o) (by simp [o])) answers
      refine ⟨virtual, same.trans clock, ?_, ?_⟩
      · rintro ⟨e, he⟩
        cases y with
        | error e' => exact refused ⟨e', rfl⟩
        | ok turns => cases he
      · intro he
        cases y with
        | error e' => cases he
        | ok turns => cases he

/-- After all actions have been answered that have been asked for, the answers may have asked for
more. -/
theorem Virtual.answered (h : r.Virtual) {x : Except ReplayError (List Turn)}
    (eq : r.answered = (r', x)) : r'.Virtual ∧ r'.session.clock = r.session.clock ∧
      ((∃ e, x = .error e) → r'.IsAnswered) ∧ (x = .ok [] → r'.IsAnswered) := by
  obtain ⟨virtual, clock, refused, none⟩ := (h.apply (o := .takeRequests) (by simp)).answer eq
  refine ⟨virtual, clock, fun e _ isOpen => absurd isOpen (refused e), fun empty _ _ => ?_⟩
  obtain ⟨-, rfl⟩ := none empty
  rfl

theorem Virtual.print (h : r.Virtual) (t : Turn) : (r.print t).Virtual := by
  rw [print_eq]
  exact h.retold _ _

/-- No time passes while turns are written down. -/
theorem Records.steady {turns : List Turn} (h : Records n turns r x) (virtual : r.Virtual)
    (answered : turns = [] → r.IsAnswered) (reached : x.2 ≠ some .endless) :
    x.1.Steady ∧ x.1.session.clock = r.session.clock := by
  induction h with
  | done n r => exact ⟨⟨virtual, answered rfl⟩, rfl⟩
  | endless => exact absurd rfl reached
  | @fatal n t pending r h =>
    have told := virtual.print t
    refine ⟨⟨⟨told.instant, told.elapsed, told.sound, told.punctual⟩, nofun⟩, ?_⟩
    exact congrArg Session.clock (session_print r t)
  | @refused n t pending r r' e h answers =>
    obtain ⟨virtual', clock, refused, -⟩ := (virtual.print t).answered answers
    exact ⟨⟨virtual', refused ⟨e, rfl⟩⟩, clock.trans (congrArg Session.clock (session_print r t))⟩
  | @more n t pending r r' turns x h answers _ ih =>
    obtain ⟨virtual', clock, -, none⟩ := (virtual.print t).answered answers
    -- If no turn is left, then no answer has come.
    have last : pending ++ turns = [] → r'.IsAnswered := fun empty =>
      none (congrArg Except.ok (List.append_eq_nil_iff.1 empty).2)
    obtain ⟨steady, same⟩ := ih virtual' last reached
    exact ⟨steady, same.trans (clock.trans (congrArg Session.clock (session_print r t)))⟩

/-- What is written down of an operation leaves the replay on virtual time. -/
theorem Steady.record {input : Except SessionError (Turn × Session)} (h : r.Steady)
    (o : Operation) (came : input.toOption = r.session.perform? o) (eq : r.record input = x)
    (reached : x.2 ≠ some .endless) :
    x.1.Steady ∧ (x.2 = none → x.1.session.clock = r.session.clockAfter o) := by
  cases input with
  | error e =>
    obtain rfl := eq
    exact ⟨h, nofun⟩
  | ok p =>
    have applied : r.session.apply o = p.2 := by
      rw [Session.apply_eq_perform?, ← came]
      rfl
    have recorded : Records r.patience [p.1] { r with session := p.2 } x := eq ▸ records ..
    -- The passing of time by itself is no turn.
    have still : ∀ now, o ≠ .elapse now := by
      rintro now rfl
      cases came
    obtain ⟨steady, clock⟩ := recorded.steady (applied ▸ h.apply still) nofun reached
    refine ⟨steady, fun _ => clock.trans ?_⟩
    rw [← Session.clock_apply h.sound o, applied]

/-! ## Firing at the deadline -/

theorem ok_of_record {input : Except SessionError (Turn × Session)}
    (eq : r.record input = (r', none)) : ∃ p, input = .ok p := by
  cases input with
  | error e => cases eq
  | ok p => exact ⟨p, rfl⟩

theorem late_of_not_due (h : ∀ deadline, ¬ r.Due target deadline) (live : r.isDiscarded = false)
    (k : TimerId) (timer : Timer) (armed : r.session.timers.armed.get? k = some timer) :
    target < timer.deadline := by
  cases next : r.session.timers.nextDeadline? with
  | none =>
    rw [Timers.get?_of_nextDeadline?_eq_none next] at armed
    cases armed
  | some deadline =>
    have later : target < deadline := Nat.lt_of_not_le fun le => h deadline ⟨next, le, live⟩
    exact Nat.lt_of_lt_of_le later ((Timers.of_nextDeadline?_eq_some next).2 k timer armed)

theorem Virtual.clock_le (h : r.Virtual) (due : r.Due target deadline) :
    r.session.clock ≤ deadline := by
  obtain ⟨⟨k, timer, armed, rfl⟩, -⟩ := Timers.of_nextDeadline?_eq_some due.next
  exact h.punctual k timer armed

/-- The clock is at the deadline after a firing. -/
theorem Steady.fire (h : r.Steady) (due : r.Due target deadline)
    (eq : r.record (r.session.fireTimers deadline) = (r', o)) (reached : o ≠ some .endless) :
    r'.Steady ∧ (o = none → r'.session.clock = deadline) := by
  obtain ⟨steady, clock⟩ := h.record (.fireTimers deadline) rfl eq reached
  refine ⟨steady, ?_⟩
  rintro rfl
  obtain ⟨p, fired⟩ := ok_of_record eq
  have isOpen := Session.checkOpen_of_fireTimers fired
  rw [clock rfl, Session.clockAfter, isOpen]
  exact if_pos (h.clock_le due)

/-- Whatever is due on the way to an instant has been fired by then, unless the session has been
discarded. -/
theorem Fires.steady {fs : List Firing} (h : Fires target n r fs x) (steady : r.Steady)
    (le : r.session.clock ≤ target) (reached : x.2 ≠ some .endless) :
    x.1.Steady ∧ (x.2 = none → x.1.session.clock ≤ target ∧ (x.1.isDiscarded = false →
      ∀ k timer, x.1.session.timers.armed.get? k = some timer → target < timer.deadline)) := by
  induction h with
  | done n h => exact ⟨steady, fun _ => ⟨le, late_of_not_due h⟩⟩
  | endless => exact absurd rfl reached
  | fails n due fired => exact ⟨(steady.fire due fired reached).1, nofun⟩
  | more due fired _ ih =>
    obtain ⟨steady', clock⟩ := steady.fire due fired nofun
    exact ih steady' (clock rfl ▸ due.le) reached

/-! ## Arriving -/

theorem print_quiet {t : Turn} (quiet : t.isQuiet = true) (r : Replay) : r.print t = r := by
  obtain ⟨said, failed, finished, fault⟩ := t
  simp only [Turn.isQuiet, Bool.and_eq_true, List.isEmpty_iff, Option.isNone_iff_eq_none] at quiet
  obtain ⟨⟨rfl, rfl⟩, rfl⟩ := quiet
  unfold print turnLines
  split <;> rfl

theorem answered_eq_self (queue : r.session.calls.queue = []) : r.answered = (r, .ok []) := by
  have taken : r.session.takeRequests = ([], r.session) := by
    unfold Session.takeRequests Calls.takeRequests
    rw [queue]
    dsimp only
    rw [← queue]
  unfold answered
  rw [taken]
  rfl

/-- A turn in which nothing happens leaves nothing. -/
theorem Records.eq_self {t : Turn} (h : Records n [t] r (r', none)) (quiet : t.isQuiet = true)
    (queue : r.session.calls.queue = []) : r' = r := by
  generalize hts : [t] = turns, hx : (r', (none : Option ReplayError)) = x at h
  cases h with
  | done => cases hts
  | endless => cases hx
  | fatal n pending r h =>
    cases hts
    simp only [Turn.isQuiet, Bool.and_eq_true, Option.isNone_iff_eq_none] at quiet
    simp [Turn.isFatal, quiet.2] at h
  | refused => cases hx
  | more h answers rest =>
    cases hts
    rw [print_quiet quiet, answered_eq_self queue] at answers
    obtain ⟨rfl, heq⟩ := Prod.mk.inj answers
    obtain rfl := Except.ok.inj heq
    cases rest
    exact (Prod.mk.inj hx).1

/-- If no timer is due, a wait ends with nothing but the clock set. -/
theorem Steady.arrive_eq (h : r.Steady) (live : r.isDiscarded = false)
    (late : ∀ k timer, r.session.timers.armed.get? k = some timer → target < timer.deadline)
    (eq : arrive target r = (r', none)) : r' = r.tick target := by
  have eq : r.record (r.session.fireTimers target) = (r', none) :=
    (if_neg (by simp [live])).symm.trans eq
  obtain ⟨p, fired⟩ := ok_of_record eq
  have isOpen := Session.checkOpen_of_fireTimers fired
  rw [Session.fireTimers_of_late isOpen late] at eq
  have recorded := records r.patience [⟨[], [], r.session.instances.isEmpty, none⟩] (r.tick target)
  have eq : recordAll r.patience [_] (r.tick target) = (r', none) := eq
  rw [eq] at recorded
  exact recorded.eq_self rfl (h.answered live isOpen)

/-- A wait ends at its instant, and whatever was due by then has been fired, unless the session has
been discarded on the way. -/
theorem Steady.waitUntil (h : r.Steady) (le : r.session.clock ≤ target)
    (eq : Replay.waitUntil target n r = (r', o)) (reached : o ≠ some .endless) :
    r'.Steady ∧ (o = none → r'.isDiscarded = false → r'.session.clock = target ∧
      ∀ k timer, r'.session.timers.armed.get? k = some timer → target < timer.deadline) := by
  have way := fires target n r
  unfold Replay.waitUntil at eq
  rcases fired : fireUntil target n r with ⟨r₁, _ | e⟩
  · rw [fired] at eq way
    have eq : arrive target r₁ = (r', o) := eq
    -- Nothing is due any more when the wait arrives, so arriving fires nothing.
    obtain ⟨steady, on⟩ := way.steady h le nofun
    obtain ⟨before, late⟩ := on rfl
    cases discarded : r₁.isDiscarded with
    | true =>
      obtain ⟨rfl, rfl⟩ := Prod.mk.inj (eq.symm.trans (if_pos discarded))
      exact ⟨steady, fun _ live => absurd (discarded.symm.trans live) nofun⟩
    | false =>
      have recorded := (if_neg (by simp [discarded])).symm.trans eq
      refine ⟨(steady.record (.fireTimers target) rfl recorded reached).1, ?_⟩
      rintro rfl -
      obtain rfl := steady.arrive_eq discarded (late discarded) eq
      exact ⟨if_pos before, late discarded⟩
  · rw [fired] at eq way
    obtain ⟨rfl, rfl⟩ := Prod.mk.inj eq
    exact ⟨(way.steady h le reached).1, nofun⟩

/-! ## Steps -/

/-- A replay stays on virtual time. -/
theorem Steady.step (h : r.Steady) {s : ScriptStep} (eq : r.step s = (r', o))
    (reached : o ≠ some .endless) : r'.Steady := by
  have noted (line : String) : (r.note line).Steady :=
    h.retold (r.transcript.push line) r.patience
  unfold Replay.step at eq
  split at eq
  · obtain ⟨rfl, -⟩ := Prod.mk.inj eq
    exact h
  · cases s with
    | say text => exact ((noted _).record (.submit (Event.userSaid text)) rfl eq reached).1
    | raise e => exact ((noted _).record (.submit e) rfl eq reached).1
    | wait d =>
      have eq := (wait_eq _ d).symm.trans eq
      split at eq
      · obtain ⟨rfl, -⟩ := Prod.mk.inj eq
        exact noted _
      · next target sum => exact ((noted _).waitUntil (Instant.le_of_add? sum) eq reached).1

/-- The states of a replay, as long as every step comes to an end. A step that has failed leaves a
state like any other. -/
inductive Reached (r₀ : Replay) : Replay → Prop
  | new : Reached r₀ r₀
  | start {r : Replay} (h : Reached r₀ r) (flows : List String)
    (ends : (r.start flows).2 ≠ some .endless) : Reached r₀ (r.start flows).1
  | step {r : Replay} (h : Reached r₀ r) (s : ScriptStep)
    (ends : (r.step s).2 ≠ some .endless) : Reached r₀ (r.step s).1

theorem Reached.steady {r₀ : Replay} (h : Reached r₀ r) (start : r₀.Steady) : r.Steady := by
  induction h with
  | new => exact start
  | start _ flows ends ih => exact (ih.record (.start flows) rfl rfl ends).1
  | step _ s ends ih => exact ih.step rfl ends

/-! ## Firings in order -/

/-- Firings in order: each takes place at its own deadline, and none before one that has an earlier
deadline. -/
structure InOrder (fs : List Firing) : Prop where
  sorted : fs.Pairwise fun f g => f.timer.deadline ≤ g.timer.deadline
  punctual : ∀ f ∈ fs, f.clock = f.timer.deadline

theorem inOrder_nil : InOrder [] := ⟨.nil, List.forall_mem_nil _⟩

/-- Firings at one instant, followed by others in order that are not earlier. -/
theorem InOrder.append {fs gs : List Firing} (later : InOrder gs)
    (now : ∀ f ∈ fs, f.timer.deadline = deadline ∧ f.clock = deadline)
    (after : ∀ g ∈ gs, deadline ≤ g.timer.deadline) : InOrder (fs ++ gs) where
  sorted := by
    refine List.pairwise_append.2 ⟨?_, later.sorted, fun f hf g hg => (now f hf).1 ▸ after g hg⟩
    refine List.pairwise_of_forall_mem_list fun f hf g hg => ?_
    rw [(now f hf).1, (now g hg).1]
    exact Nat.le_refl _
  punctual f hf := by
    rcases List.mem_append.1 hf with hf | hf
    · exact (now f hf).2.trans (now f hf).1.symm
    · exact later.punctual f hf

theorem Virtual.firings_at (h : r.Virtual) (due : r.Due target deadline) :
    ∀ f ∈ r.session.firings deadline, f.timer.deadline = deadline ∧ f.clock = deadline := by
  intro f hf
  unfold Session.firings at hf
  split at hf
  · cases hf
  · obtain ⟨⟨id, timer⟩, mem, rfl⟩ := List.mem_map.1 hf
    obtain ⟨armed, le⟩ := Timers.mem_due_iff.1 mem
    have ge := (Timers.of_nextDeadline?_eq_some due.next).2 id timer armed
    refine ⟨Instant.le_antisymm le ge, ?_⟩
    rw [(Session.firing_spec _ _).2.2.2]
    exact if_pos (h.clock_le due)

/-- What is fired on the way is in order, and none of it lies before the clock. -/
theorem Fires.inOrder {fs : List Firing} (h : Fires target n r fs x) (steady : r.Steady) :
    InOrder fs ∧ ∀ f ∈ fs, r.session.clock ≤ f.timer.deadline := by
  induction h with
  | done => exact ⟨inOrder_nil, List.forall_mem_nil _⟩
  | endless => exact ⟨inOrder_nil, List.forall_mem_nil _⟩
  | fails n due =>
    have now := steady.firings_at due
    have ordered := inOrder_nil.append now (List.forall_mem_nil _)
    rw [List.append_nil] at ordered
    exact ⟨ordered, fun f hf => (now f hf).1 ▸ steady.clock_le due⟩
  | more due fired _ ih =>
    have now := steady.firings_at due
    have le := steady.clock_le due
    obtain ⟨steady', clock⟩ := steady.fire due fired nofun
    -- What follows begins with the clock at the deadline.
    obtain ⟨ordered, after⟩ := ih steady'
    rw [clock rfl] at after
    refine ⟨ordered.append now after, fun f hf => ?_⟩
    rcases List.mem_append.1 hf with hf | hf
    · exact (now f hf).1 ▸ le
    · exact Nat.le_trans le (after f hf)

/-- The timers of a wait fire in the order of their deadlines, each at its own. -/
theorem Steady.inOrder_firings (h : r.Steady) (d : Duration) : InOrder (r.firings d) := by
  unfold firings
  split
  · exact inOrder_nil
  · next target sum =>
    dsimp only
    have way := fires target (r.patience + target.nanos + 1) r
    -- At the end nothing is left that could fire.
    have nothing :
        lastFirings target (fireUntil target (r.patience + target.nanos + 1) r) = [] := by
      rcases fired : fireUntil target (r.patience + target.nanos + 1) r with ⟨r', _ | e⟩
      · rw [fired] at way
        obtain ⟨-, on⟩ := way.steady h (Instant.le_of_add? sum) nofun
        refine (ite_eq_left_iff.2 fun live => ?_)
        unfold Session.firings
        rw [Timers.due_eq_nil ((on rfl).2 (Bool.not_eq_true _ ▸ live))]
        split <;> rfl
      · rfl
    rw [nothing, List.append_nil]
    exact (way.inOrder h).1

/-! ## Waits add up -/

/-- What is left to do when the first of two waits has fired its timers. If the session has been
discarded by then, that is nothing. -/
theorem Steady.second_wait {r₁ r₂ : Replay} {t₁ : Instant} {b : Duration} (h : r.Steady)
    (before : r.session.clock ≤ t₁) (late : r.isDiscarded = false →
      ∀ k timer, r.session.timers.armed.get? k = some timer → t₁ < timer.deadline)
    (arrived : arrive t₁ r = (r₁, none)) (second : r₁.step (.wait b) = (r₂, none))
    (sum : t₁.add? b = some target) :
    ∃ m said, m ≤ r.patience + target.nanos + 1 ∧
      r₂.transcript = r.transcript ++ r₁.waitLines b ++ said ∧
        Replay.waitUntil target m r = (r₂.retold (r.transcript ++ said) r.patience, none) := by
  cases discarded : r.isDiscarded with
  | true =>
    obtain ⟨rfl, -⟩ := Prod.mk.inj (arrived.symm.trans (if_pos discarded))
    obtain ⟨rfl, -⟩ := Prod.mk.inj (second.symm.trans (step_wait_of_discarded discarded b))
    refine ⟨0, #[], Nat.zero_le _, ?_, ?_⟩
    · rw [waitLines, if_pos discarded, Array.append_empty, Array.append_empty]
    · rw [waitUntil_of_discarded discarded, Array.append_empty]
      rfl
  | false =>
    obtain rfl := h.arrive_eq discarded (late discarded) arrived
    have live : (r.tick t₁).isDiscarded = false := discarded
    have clock : (r.tick t₁).session.clock = t₁ := if_pos before
    obtain ⟨t₂, sum₂, waited⟩ := of_step_wait live second
    obtain rfl := Option.some.inj (sum.symm.trans (clock ▸ sum₂))
    -- The clock might as well not have been set in between.
    let noted := r.retold (r.transcript ++ (r.tick t₁).waitLines b) r.patience
    have whole : Replay.waitUntil target (r.patience + target.nanos + 1) noted = (r₂, none) :=
      waitUntil_tick discarded (late discarded) (Instant.le_of_add? sum) waited
    obtain ⟨said, told, same⟩ := indifferent_waitUntil target _ noted r₂ none whole nofun
    exact ⟨_, said, Nat.le_refl _, told,
      same _ (Nat.le_refl _) r.transcript r.patience (Nat.le_refl _)⟩

/-- What two waits do one after the other is done by one, if it has enough time and patience. -/
theorem Steady.wait_twice {r₁ r₂ : Replay} {a b : Duration} (h : r.Steady)
    (live : r.isDiscarded = false) (sum : r.session.clock.add? ⟨a.nanos + b.nanos⟩ = some target)
    (first : r.step (.wait a) = (r₁, none)) (second : r₁.step (.wait b) = (r₂, none)) :
    ∃ said said',
      r₂.transcript = r.transcript ++ r.waitLines a ++ said ++ r₁.waitLines b ++ said' ∧
        ∀ n ≥ 2 * r.patience + (r.session.clock.nanos + a.nanos) + target.nanos + 2,
          ∀ transcript, ∀ patience ≥ r.patience,
            Replay.waitUntil target n (r.retold transcript patience) =
              (r₂.retold (transcript ++ said ++ said') patience, none) := by
  obtain ⟨t₁, sum₁, waited⟩ := of_step_wait live first
  have sum₂ := Instant.add?_of_sum sum₁ sum
  -- The first wait fires what is due by its end, and the second one goes on from there.
  obtain ⟨r', fired, arrived⟩ := fireUntil_of_waitUntil waited
  let noted := r.retold (r.transcript ++ r.waitLines a) r.patience
  have way : Fires t₁ _ noted _ (r', none) := fired ▸ fires t₁ _ noted
  obtain ⟨steady, on⟩ := way.steady (h.retold _ _) (Instant.le_of_add? sum₁) nofun
  have steady : r'.Steady := steady
  obtain ⟨before, late⟩ := on rfl
  have patience : r'.patience = r.patience :=
    (indifferent_fireUntil t₁ _ noted).patience_eq fired nofun
  obtain ⟨said, told, -⟩ := indifferent_fireUntil t₁ _ noted r' none fired nofun
  have told : r'.transcript = r.transcript ++ r.waitLines a ++ said := told
  obtain ⟨m, said', enough, told', rest⟩ := steady.second_wait before late arrived second sum₂
  -- One wait up to the later end fires both. It tells the same lines, in whatever way they are
  -- split.
  have whole := waitUntil_add (Instant.le_of_add? sum₂) fired rest
  obtain ⟨lines, both, same⟩ := indifferent_waitUntil target _ noted _ none whole nofun
  have both : r'.transcript ++ said' = r.transcript ++ r.waitLines a ++ lines := both
  obtain rfl : said ++ said' = lines := by
    rw [told, Array.append_assoc] at both
    exact (Array.append_right_inj _).1 both
  refine ⟨said, said', by rw [told', told], fun n le transcript patience' le' => ?_⟩
  have nanos := Instant.nanos_of_add? sum₁
  rw [Array.append_assoc]
  exact same n (by omega) transcript patience' le'

/-- One wait does what two waits do one after the other, unless it runs out of patience. -/
theorem Steady.wait_once {r₁ r₂ : Replay} {a b : Duration} (h : r.Steady)
    (sum : (r.session.clock.add? ⟨a.nanos + b.nanos⟩).isSome)
    (first : r.step (.wait a) = (r₁, none)) (second : r₁.step (.wait b) = (r₂, none)) :
    ∃ said said' : Array String,
      r₂.transcript = r.transcript ++ r.waitLines a ++ said ++ r₁.waitLines b ++ said' ∧
        ∀ patience,
          (r.retold r.transcript patience).step (.wait ⟨a.nanos + b.nanos⟩) =
            (r₂.retold (r.transcript ++ r.waitLines ⟨a.nanos + b.nanos⟩ ++ said ++ said')
              patience, none) ∨
          patience ≤ 2 * r.patience + (r.session.clock.nanos + a.nanos) ∧
            ((r.retold r.transcript patience).step (.wait ⟨a.nanos + b.nanos⟩)).2 =
              some .endless := by
  obtain ⟨target, sum⟩ := Option.isSome_iff_exists.1 sum
  cases live : r.isDiscarded with
  | true =>
    have none (d : Duration) : r.waitLines d = #[] := if_pos live
    obtain ⟨rfl, -⟩ := Prod.mk.inj (first.symm.trans (step_wait_of_discarded live a))
    obtain ⟨rfl, -⟩ := Prod.mk.inj (second.symm.trans (step_wait_of_discarded live b))
    refine ⟨#[], #[], by simp [none], fun patience => .inl ?_⟩
    have still : (r₂.retold r₂.transcript patience).isDiscarded = true := live
    rw [step_wait_of_discarded still]
    simp [none]
  | false =>
    obtain ⟨said, said', told, enough⟩ := h.wait_twice live sum first second
    refine ⟨said, said', told, fun patience => ?_⟩
    let noted := r.retold (r.transcript ++ r.waitLines ⟨a.nanos + b.nanos⟩) patience
    have once : (r.retold r.transcript patience).step (.wait ⟨a.nanos + b.nanos⟩) =
        Replay.waitUntil target (patience + target.nanos + 1) noted := by
      have live : (r.retold r.transcript patience).isDiscarded = false := live
      have sum : (r.retold r.transcript patience).session.clock.add? ⟨a.nanos + b.nanos⟩ =
          some target := sum
      rw [step_wait live, sum]
      rfl
    rw [once]
    by_cases patient : 2 * r.patience + (r.session.clock.nanos + a.nanos) < patience
    · exact .inl (enough _ (by omega) _ patience (by omega))
    · rcases waited : Replay.waitUntil target (patience + target.nanos + 1) noted with ⟨r', o⟩
      by_cases endless : o = some .endless
      · exact .inr ⟨Nat.le_of_not_lt patient, endless⟩
      -- What comes of it is what would come of it with more patience.
      · have known := enough (patience + target.nanos + 1 +
          (2 * r.patience + (r.session.clock.nanos + a.nanos) + target.nanos + 2)) (by omega)
          (r.transcript ++ r.waitLines ⟨a.nanos + b.nanos⟩) (patience + r.patience) (by omega)
        have indifferent := indifferent_waitUntil target (patience + target.nanos + 1) noted
        exact .inl (indifferent.agrees waited endless (Nat.le_add_right ..) (Nat.le_add_right ..)
          known)

/-- A wait that does not fail goes on for as long as it says, and fires whatever is due by then,
unless the session is discarded. -/
theorem Steady.wait_reaches {d : Duration} (h : r.Steady) (waited : r.step (.wait d) = (r', none))
    (live : r'.isDiscarded = false) : r.session.clock.add? d = some r'.session.clock ∧
      ∀ k timer, r'.session.timers.armed.get? k = some timer →
        r'.session.clock < timer.deadline := by
  cases discarded : r.isDiscarded with
  | true =>
    obtain ⟨rfl, -⟩ := Prod.mk.inj (waited.symm.trans (step_wait_of_discarded discarded d))
    rw [discarded] at live
    cases live
  | false =>
    obtain ⟨target, sum, eq⟩ := of_step_wait discarded waited
    have start := h.retold (r.transcript ++ r.waitLines d) r.patience
    obtain ⟨clock, late⟩ := (start.waitUntil (Instant.le_of_add? sum) eq nofun).2 rfl live
    rw [clock]
    exact ⟨sum, late⟩

/-- If no action takes any time, then in whichever state of a replay two waits, each of which comes
to its end, leave what one wait of their sum leaves: the session with its clock, whether it has been
discarded, and the lines, apart from those about the waits themselves. The one wait may need more
patience than each of the two. Timers fire in the order of their deadlines, each at its own. A wait
that comes to its end leaves no timer that has been due, no matter when it has been armed, unless
the session is discarded. -/
theorem waits_add_up {name : String} {library : FlowLibrary} {limits : Limits} {context : Params}
    {actions : Registry} {actionTimeout : Duration} {isJson : Bool} {patience : Nat} {r : Replay}
    (instant : ∀ action params,
      ((actions.run action params).within action actionTimeout).delay = ⟨0⟩)
    (reached : Reached (new (Session.new name library limits context) actions actionTimeout isJson
      patience) r) :
    (∀ a b r₁ r₂, (r.session.clock.add? ⟨a.nanos + b.nanos⟩).isSome →
      r.step (.wait a) = (r₁, none) → r₁.step (.wait b) = (r₂, none) →
        ∃ said said' : Array String,
          r₂.transcript = r.transcript ++ r.waitLines a ++ said ++ r₁.waitLines b ++ said' ∧
            ∀ patience,
              (r.retold r.transcript patience).step (.wait ⟨a.nanos + b.nanos⟩) =
                (r₂.retold (r.transcript ++ r.waitLines ⟨a.nanos + b.nanos⟩ ++ said ++ said')
                  patience, none) ∨
              patience ≤ 2 * r.patience + (r.session.clock.nanos + a.nanos) ∧
                ((r.retold r.transcript patience).step (.wait ⟨a.nanos + b.nanos⟩)).2 =
                  some .endless) ∧
    (∀ d, InOrder (r.firings d)) ∧
    ∀ d r', r.step (.wait d) = (r', none) → r'.isDiscarded = false →
      r.session.clock.add? d = some r'.session.clock ∧
        ∀ k timer, r'.session.timers.armed.get? k = some timer →
          r'.session.clock < timer.deadline := by
  have start : (new (Session.new name library limits context) actions actionTimeout isJson
      patience).Steady :=
    ⟨⟨instant, rfl, Session.sound_new .., Session.punctual_new name library limits context⟩,
      fun _ _ => rfl⟩
  have h := reached.steady start
  exact ⟨fun a b r₁ r₂ => h.wait_once, h.inOrder_firings, fun d r' => h.wait_reaches⟩

/-- A replay with the actions that are always there. -/
def builtin (library : FlowLibrary) : Replay :=
  new (Session.new "session" library .standard ∅) builtinActions (.ofNat 30) false 10

/-- A flow that goes on every five seconds is made to wait for seven seconds and for five more, or
for twelve at once. -/
theorem waits_add_up_sleeping :
    ∃ library r r₁ r₂ transcript,
      FlowLibrary.ofDefinitions Vocabulary.standard (Session.sleepingFlows 5) = .ok library ∧
        (builtin library).start ["sleeper"] = (r, none) ∧
        r.step (.wait (.ofNat 7)) = (r₁, none) ∧ r₁.step (.wait (.ofNat 5)) = (r₂, none) ∧
        (r.retold r.transcript 10000000000).step (.wait (.ofNat 12)) =
          (r₂.retold transcript 10000000000, none) ∧
        (r.firings (.ofNat 12)).map (fun f => (f.id.number, f.timer.deadline.nanos)) =
          [(1, 5000000000), (2, 10000000000)] ∧
        InOrder (r.firings (.ofNat 12)) ∧
        r.session.clock.add? (.ofNat 7) = some r₁.session.clock := by
  have run : (FlowLibrary.ofDefinitions Vocabulary.standard (Session.sleepingFlows 5)).toOption.any
      (fun library =>
        let (r, o) := (builtin library).start ["sleeper"]
        let (r₁, o₁) := r.step (.wait (.ofNat 7))
        o.isNone && o₁.isNone && (r₁.step (.wait (.ofNat 5))).2.isNone && !r₁.isDiscarded &&
          decide (r.patience = 10) && decide (r.session.clock = ⟨0⟩) &&
            decide ((r.firings (.ofNat 12)).map (fun f => (f.id.number, f.timer.deadline.nanos)) =
              [(1, 5000000000), (2, 10000000000)])) = true := by
    decide +kernel
  obtain ⟨library, loaded, run⟩ := exists_of_toOption_any run
  rcases started : (builtin library).start ["sleeper"] with ⟨r, o⟩
  rcases first : r.step (.wait (.ofNat 7)) with ⟨r₁, o₁⟩
  rcases second : r₁.step (.wait (.ofNat 5)) with ⟨r₂, o₂⟩
  simp only [started, first, second, Bool.and_eq_true, Option.isNone_iff_eq_none,
    Bool.not_eq_true', decide_eq_true_eq] at run
  obtain ⟨⟨⟨⟨⟨⟨rfl, rfl⟩, rfl⟩, live⟩, patience⟩, clock⟩, firings⟩ := run
  have reached : Reached (builtin library) ((builtin library).start ["sleeper"]).1 :=
    .start .new ["sleeper"] (by simp [started])
  rw [started] at reached
  obtain ⟨adding, inOrder, reaches⟩ := waits_add_up (delay_builtinActions _) reached
  have whole : (⟨(Duration.ofNat 7).nanos + (Duration.ofNat 5).nanos⟩ : Duration) = .ofNat 12 :=
    rfl
  have sum : (r.session.clock.add? (.ofNat 12)).isSome := by
    rw [clock]
    decide
  obtain ⟨said, said', -, once⟩ := adding _ _ _ _ (whole ▸ sum) first second
  rw [whole] at once
  refine ⟨library, r, r₁, r₂, _, loaded, started, first, second,
    (once 10000000000).resolve_right fun less => ?_, firings, inOrder _,
    (reaches _ _ first live).1⟩
  -- The patience given exceeds the bound, so the replay does not give up.
  have less := less.1
  simp only [patience, clock, Duration.ofNat, Duration.nanosPerSecond] at less
  omega

end Replay

end Dialogue
