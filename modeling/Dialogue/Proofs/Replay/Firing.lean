import Dialogue.Proofs.Replay.Record

/-!
# Waits of a replay

On its way a wait fires whatever is due, one deadline after the other. A timer that is armed by then
may be due on the way as well. At the end, time goes on to the instant that has been waited for.

A wait may be interrupted. If the timers have been fired that are due until an instant, it makes no
difference whether the clock is set to that instant before the wait goes on.

## Main definitions

* `Replay.Due` — a timer is to be fired on the way
* `Firing`, `Replay.firings` — the timers that fire in a wait
* `Replay.Fires` — how timers are fired, one deadline after the other
* `Replay.waitUntil` — a wait until an instant

## Main results

* `Replay.fires` — timers are fired in this way
* `Replay.step_wait` — a step that waits
* `Replay.waitUntil_add` — one wait after the other
* `Replay.waitUntil_tick` — when the clock is set makes no difference
-/

namespace Dialogue

/-- A timer that fires, and the clock of the turn in which it does. -/
structure Firing where
  /-- The timer. -/
  id : TimerId
  /-- Its deadline, and the instance that waits. -/
  timer : Timer
  /-- The clock of the turn. -/
  clock : Instant

/-- The timers that fire at an instant. -/
def Session.firings (s : Session) (now : Instant) : List Firing :=
  match s.checkOpen with
  | .error _ => []
  | .ok () => (s.timers.due now).map fun (id, timer) => ⟨id, timer, (s.firing now).clock⟩

/-- They are the timers whose events are queued. -/
theorem Session.map_firings (s : Session) (now : Instant) :
    (s.firings now).map (fun f => (f.id, f.timer.owner)) = s.fired (.fireTimers now) := by
  unfold firings fired
  cases s.checkOpen with
  | error e => rfl
  | ok u => exact List.map_map

namespace Replay

/-! ## Firing on the way -/

/-- A timer is to be fired on the way to an instant. -/
structure Due (target : Instant) (r : Replay) (deadline : Instant) : Prop where
  next : r.session.nextDeadline? = some deadline
  le : deadline ≤ target
  live : r.isDiscarded = false

/-- The timers that fire on the way to an instant. -/
def firingsUntil (target : Instant) : Nat → Replay → List Firing
  | fuel, r =>
    match r.session.nextDeadline? with
    | none => []
    | some deadline =>
      if target < deadline || r.isDiscarded then []
      else
        match fuel with
        | 0 => []
        | fuel + 1 =>
          r.session.firings deadline ++
            match r.record (r.session.fireTimers deadline) with
            | (_, some _) => []
            | (r, none) => firingsUntil target fuel r

/-- How timers are fired on the way to an instant, one deadline after the other. -/
inductive Fires (target : Instant) : Nat → Replay → List Firing → Replay × Option ReplayError → Prop
  | done (n) {r} (h : ∀ deadline, ¬ r.Due target deadline) : Fires target n r [] (r, none)
  | endless {r deadline} (due : r.Due target deadline) : Fires target 0 r [] (r, some .endless)
  | fails (n) {r deadline r' e} (due : r.Due target deadline)
    (fired : r.record (r.session.fireTimers deadline) = (r', some e)) :
    Fires target (n + 1) r (r.session.firings deadline) (r', some e)
  | more {n r deadline r' fs x} (due : r.Due target deadline)
    (fired : r.record (r.session.fireTimers deadline) = (r', none))
    (rest : Fires target n r' fs x) :
    Fires target (n + 1) r (r.session.firings deadline ++ fs) x

variable {r r' : Replay} {o : Option ReplayError} {x : Replay × Option ReplayError}
  {target deadline : Instant} {n m : Nat} {fs : List Firing}

theorem Due.goes_on (h : r.Due target deadline) :
    ¬ (decide (target < deadline) || r.isDiscarded) = true := by
  rw [h.live, Bool.or_false, decide_eq_true_iff]
  exact Nat.not_lt_of_le h.le

theorem stops_of_not_due (h : ∀ deadline, ¬ r.Due target deadline)
    (next : r.session.nextDeadline? = some deadline) :
    (decide (target < deadline) || r.isDiscarded) = true := by
  by_contra go
  simp only [Bool.or_eq_true, decide_eq_true_eq, not_or, Bool.not_eq_true] at go
  exact h deadline ⟨next, Nat.le_of_not_lt go.1, go.2⟩

theorem fires (target : Instant) (n : Nat) (r : Replay) :
    Fires target n r (firingsUntil target n r) (fireUntil target n r) := by
  -- What the recursion looks at first is whether anything is due.
  by_cases due : ∃ deadline, r.Due target deadline
  · obtain ⟨deadline, due⟩ := due
    unfold firingsUntil fireUntil
    simp only [due.next, if_neg due.goes_on]
    cases n with
    | zero => exact .endless due
    | succ n =>
      rcases fired : r.record (r.session.fireTimers deadline) with ⟨r', _ | e⟩
      · exact .more due fired (fires target n r')
      · have fails := Fires.fails n due fired
        dsimp only
        rwa [List.append_nil]
  · have none := not_exists.1 due
    have done := Fires.done n none
    unfold firingsUntil fireUntil
    cases next : r.session.nextDeadline? with
    | none => exact done
    | some deadline =>
      simp only [stops_of_not_due none next, if_true]
      exact done

theorem Fires.fireUntil_eq (h : Fires target n r fs x) : fireUntil target n r = x := by
  induction h with
  | done n h =>
    unfold fireUntil
    split
    · rfl
    · next next => exact if_pos (stops_of_not_due h next)
  | endless due =>
    unfold fireUntil
    simp only [due.next, if_neg due.goes_on]
  | fails n due fired =>
    unfold fireUntil
    simp only [due.next, if_neg due.goes_on, fired]
  | more due fired _ ih =>
    unfold fireUntil
    simp only [due.next, if_neg due.goes_on, fired]
    exact ih

/-- With more time the same is fired. -/
theorem Fires.of_le (h : Fires target n r fs x) (reached : x.2 ≠ some .endless) (le : n ≤ m) :
    Fires target m r fs x := by
  induction h generalizing m with
  | done n h => exact .done m h
  | endless => exact absurd rfl reached
  | fails n due fired =>
    obtain ⟨k, rfl⟩ := Nat.exists_eq_add_of_lt le
    exact .fails (n + k) due fired
  | more due fired _ ih =>
    obtain ⟨k, rfl⟩ := Nat.exists_eq_add_of_lt le
    exact .more due fired (ih reached (Nat.le_add_right ..))

theorem due_retold {transcript : Array String} {patience : Nat} :
    (r.retold transcript patience).Due target deadline ↔ r.Due target deadline :=
  ⟨fun h => ⟨h.next, h.le, h.live⟩, fun h => ⟨h.next, h.le, h.live⟩⟩

/-- The same is fired after other lines, and with more time and patience. -/
theorem Fires.retold (h : Fires target n r fs x) (reached : x.2 ≠ some .endless) :
    ∃ lines, x.1.transcript = r.transcript ++ lines ∧
      ∀ n' ≥ n, ∀ transcript, ∀ patience ≥ r.patience,
        Fires target n' (r.retold transcript patience) fs
          (x.1.retold (transcript ++ lines) patience, x.2) := by
  induction h with
  | done n h =>
    refine ⟨#[], (Array.append_empty ..).symm, fun n' _ transcript patience _ => ?_⟩
    rw [Array.append_empty]
    exact .done n' fun deadline due => h deadline (due_retold.1 due)
  | endless => exact absurd rfl reached
  | @fails n r deadline r' e due fired =>
    obtain ⟨lines, told, same⟩ :=
      indifferent_record (·.fireTimers deadline) n r r' (some e) fired reached
    refine ⟨lines, told, fun n' le transcript patience enough => ?_⟩
    obtain ⟨k, rfl⟩ := Nat.exists_eq_add_of_lt le
    exact .fails (n + k) (due_retold.2 due) (same n (Nat.le_refl n) transcript patience enough)
  | @more n r deadline r' fs x due fired _ ih =>
    have recorded := indifferent_record (·.fireTimers deadline) n r
    obtain ⟨lines, told, same⟩ := recorded r' none fired nofun
    obtain ⟨lines', told', same'⟩ := ih reached
    refine ⟨lines ++ lines', ?_, fun n' le transcript patience enough => ?_⟩
    · rw [told', told, Array.append_assoc]
    · obtain ⟨k, rfl⟩ := Nat.exists_eq_add_of_lt le
      -- What is fired does not use up patience.
      have patient : r'.patience ≤ patience := recorded.patience_eq fired nofun ▸ enough
      rw [← Array.append_assoc]
      exact .more (due_retold.2 due) (same n (Nat.le_refl n) transcript patience enough)
        (same' (n + k) (Nat.le_add_right ..) _ patience patient)

theorem indifferent_fireUntil (target : Instant) (n : Nat) (r : Replay) :
    Indifferent (fireUntil target) n r := by
  intro r' o eq reached
  have fired : Fires target n r (firingsUntil target n r) (r', o) := eq ▸ fires target n r
  obtain ⟨lines, told, same⟩ := fired.retold reached
  exact ⟨lines, told, fun n' le transcript patience enough =>
    (same n' le transcript patience enough).fireUntil_eq⟩

/-! ## Waits -/

/-- The end of a wait. -/
def arrive (target : Instant) (r : Replay) : Replay × Option ReplayError :=
  if r.isDiscarded then (r, none) else r.record (r.session.fireTimers target)

/-- A wait until an instant. -/
def waitUntil (target : Instant) (n : Nat) (r : Replay) : Replay × Option ReplayError :=
  andThen (arrive target) (fireUntil target n r)

theorem wait_eq (r : Replay) (d : Duration) : r.wait d = match r.session.clock.add? d with
    | none => (r, some (.waitOutOfRange d))
    | some target => waitUntil target (r.patience + target.nanos + 1) r := by
  unfold wait waitUntil
  cases r.session.clock.add? d with
  | none => rfl
  | some target =>
    dsimp only
    rcases fireUntil target (r.patience + target.nanos + 1) r with ⟨r', _ | e⟩ <;> rfl

theorem indifferent_arrive (target : Instant) (n : Nat) (r : Replay) :
    Indifferent (fun _ => arrive target) n r := by
  by_cases discarded : r.isDiscarded = true
  · exact indifferent_of_none fun n' _ transcript patience => if_pos discarded
  · have same (transcript patience) : arrive target (r.retold transcript patience) =
        (r.retold transcript patience).record (r.session.fireTimers target) :=
      if_neg discarded
    intro r' o eq reached
    have eq := (same r.transcript r.patience).symm.trans eq
    obtain ⟨lines, told, later⟩ := indifferent_record (·.fireTimers target) n r r' o eq reached
    exact ⟨lines, told, fun n' le transcript patience enough =>
      (same transcript patience).trans (later n' le transcript patience enough)⟩

theorem indifferent_waitUntil (target : Instant) (n : Nat) (r : Replay) :
    Indifferent (waitUntil target) n r :=
  (indifferent_fireUntil target n r).andThen fun r' => indifferent_arrive target n r'

theorem waitUntil_of_discarded (discarded : r.isDiscarded = true) (n : Nat) :
    waitUntil target n r = (r, none) := by
  have none : ∀ deadline, ¬ r.Due target deadline := fun deadline due =>
    absurd (due.live.symm.trans discarded) nofun
  rw [waitUntil, (Fires.done n none).fireUntil_eq]
  exact if_pos discarded

/-- A wait that does not fail fires its timers and arrives. -/
theorem fireUntil_of_waitUntil (eq : waitUntil target n r = (r', none)) :
    ∃ r₁, fireUntil target n r = (r₁, none) ∧ arrive target r₁ = (r', none) := by
  unfold waitUntil at eq
  rcases fired : fireUntil target n r with ⟨r₁, _ | e⟩
  · rw [fired] at eq
    exact ⟨r₁, rfl, eq⟩
  · rw [fired] at eq
    cases eq

/-! ## Steps that wait -/

/-- The line that is left by a step that waits. There is none if the session has been discarded. -/
def waitLines (r : Replay) (d : Duration) : Array String :=
  if r.isDiscarded then #[] else #["> (wait " ++ d.secondsText ++ ")"]

theorem step_wait_of_discarded (discarded : r.isDiscarded = true) (d : Duration) :
    r.step (.wait d) = (r, none) := if_pos discarded

/-- A step that waits, unless the session has been discarded. -/
theorem step_wait (live : r.isDiscarded = false) (d : Duration) : r.step (.wait d) =
    match r.session.clock.add? d with
    | none => (r.retold (r.transcript ++ r.waitLines d) r.patience, some (.waitOutOfRange d))
    | some target => waitUntil target (r.patience + target.nanos + 1)
      (r.retold (r.transcript ++ r.waitLines d) r.patience) := by
  have lines : r.note ("> (wait " ++ d.secondsText ++ ")") =
      r.retold (r.transcript ++ r.waitLines d) r.patience := by
    unfold waitLines
    rw [if_neg (by simp [live]), Array.append_singleton]
    rfl
  unfold step
  rw [if_neg (by simp [live])]
  dsimp only
  rw [lines, wait_eq]
  rfl

/-- A step that waits and does not fail waits until its end. -/
theorem of_step_wait (live : r.isDiscarded = false) {d : Duration}
    (eq : r.step (.wait d) = (r', none)) : ∃ target, r.session.clock.add? d = some target ∧
      waitUntil target (r.patience + target.nanos + 1)
        (r.retold (r.transcript ++ r.waitLines d) r.patience) = (r', none) := by
  rw [step_wait live] at eq
  split at eq
  · cases eq
  · next target sum => exact ⟨target, sum, eq⟩

/-! ## One wait after the other -/

variable {r₁ r₂ : Replay} {t₁ t₂ : Instant}

/-- If timers are fired until an instant and then on the way to a later one, the same happens on the
way to the later one. -/
theorem Fires.trans {fs' : List Firing} (first : Fires t₁ n r fs (r₁, none)) (le : t₁ ≤ t₂)
    (second : Fires t₂ m r₁ fs' x) (reached : x.2 ≠ some .endless) :
    Fires t₂ (n + m) r (fs ++ fs') x := by
  generalize hy : (r₁, (none : Option ReplayError)) = y at first
  induction first with
  | done n h =>
    cases hy
    exact second.of_le reached (Nat.le_add_left m n)
  | endless => cases hy
  | fails => cases hy
  | more due fired _ ih =>
    rw [List.append_assoc, Nat.add_right_comm]
    exact .more ⟨due.next, Nat.le_trans due.le le, due.live⟩ fired (ih hy)

/-- A wait until an instant and one until a later instant are one wait until the later one. -/
theorem waitUntil_add (le : t₁ ≤ t₂) (first : fireUntil t₁ n r = (r₁, none))
    (second : waitUntil t₂ m r₁ = (r₂, none)) : waitUntil t₂ (n + m) r = (r₂, none) := by
  obtain ⟨r', fired, arrived⟩ := fireUntil_of_waitUntil second
  have before : Fires t₁ n r _ (r₁, none) := first ▸ fires t₁ n r
  have after : Fires t₂ m r₁ _ (r', none) := fired ▸ fires t₂ m r₁
  rw [waitUntil, (before.trans le after nofun).fireUntil_eq]
  exact arrived

/-- The replay at an instant, or later if it has been later. -/
def tick (r : Replay) (now : Instant) : Replay := { r with session := r.session.tick now }

theorem due_tick : (r.tick t₁).Due target deadline ↔ r.Due target deadline :=
  ⟨fun h => ⟨h.next, h.le, h.live⟩, fun h => ⟨h.next, h.le, h.live⟩⟩

theorem record_tick (le : t₁ ≤ t₂)
    (eq : (r.tick t₁).record ((r.tick t₁).session.fireTimers t₂) = (r', none)) :
    r.record (r.session.fireTimers t₂) = (r', none) := by
  have same : (r.tick t₁).session.fireTimers t₂ = r.session.fireTimers t₂ :=
    Session.fireTimers_tick le
  rw [same] at eq
  cases fired : r.session.fireTimers t₂ with
  | error e =>
    rw [fired] at eq
    cases eq
  | ok p =>
    rw [fired] at eq
    exact eq

/-- If no timer is due at an instant, a wait may as well begin before that instant. -/
theorem waitUntil_tick (live : r.isDiscarded = false)
    (late : ∀ k timer, r.session.timers.armed.get? k = some timer → t₁ < timer.deadline)
    (le : t₁ ≤ t₂) (eq : waitUntil t₂ n (r.tick t₁) = (r₂, none)) :
    waitUntil t₂ n r = (r₂, none) := by
  obtain ⟨r', fired, arrived⟩ := fireUntil_of_waitUntil eq
  have way : Fires t₂ n (r.tick t₁) _ (r', none) := fired ▸ fires t₂ n (r.tick t₁)
  generalize firingsUntil t₂ n (r.tick t₁) = fs at way
  cases way with
  | done n h =>
    have none : ∀ deadline, ¬ r.Due t₂ deadline := fun deadline due => h deadline (due_tick.2 due)
    rw [waitUntil, (Fires.done n none).fireUntil_eq]
    have arrived := (if_neg (by simp [tick, live])).symm.trans arrived
    exact (if_neg (by simp [live])).trans (record_tick le arrived)
  | @more n _ deadline r₁ fs _ due first rest =>
    have before : t₁ ≤ deadline := by
      obtain ⟨⟨k, timer, armed, rfl⟩, -⟩ := Timers.of_nextDeadline?_eq_some due.next
      exact Nat.le_of_lt (late k timer armed)
    have way := Fires.more (due_tick.1 due) (record_tick before first) rest
    rw [waitUntil, way.fireUntil_eq]
    exact arrived

/-! ## The timers of a wait -/

/-- The timers that fire at the end of a wait. -/
def lastFirings (target : Instant) : Replay × Option ReplayError → List Firing
  | (_, some _) => []
  | (r, none) => if r.isDiscarded then [] else r.session.firings target

/-- The timers that fire in a wait. -/
def firings (r : Replay) (d : Duration) : List Firing :=
  match r.session.clock.add? d with
  | none => []
  | some target =>
    let fuel := r.patience + target.nanos + 1
    firingsUntil target fuel r ++ lastFirings target (fireUntil target fuel r)

end Replay

end Dialogue
