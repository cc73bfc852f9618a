import Dialogue.Proofs.Host.Orderly

/-!
# One call after the other

A host on its own is told one thing at a time, and it knows exactly the sessions that it has. This
is what happens if each call returns before the next one is begun, and so it is one of the ways in
which calls may overlap. What holds of all of them holds of a host.

## Main definitions

* `Host.Does` — what a host may do
* `Traffic.Alone` — no call is in progress, and callers find the sessions that the host has

## Main results

* `Traffic.Reached.create`, `Traffic.Reached.submit`, `Traffic.Reached.destroy` — calls that nothing
  comes between
* `Host.exists_traffic` — what a host does may happen if calls overlap
-/

namespace Dialogue

namespace Traffic

variable {w : Traffic} {n : Nat} {h : Host} {d : Dealings} {t : Turn}

/-! ## Steps of one call -/

theorem since_self (h : Host) : h.since h = [] := by simp [Host.since]

theorem dealings_deal (w : Traffic) (n : Nat) (h : Host) (d : Dealings) :
    (w.deal n h d).dealings n = { d with told := d.told ++ w.host.since h } :=
  Function.update_self ..

/-- A state that has been reached, by what has been done last. -/
theorem exists_dealings (reached : (w.deal n h d).Reached) : ∃ w' : Traffic, w'.Reached ∧
    w'.host = h ∧ w'.dealings n = { d with told := d.told ++ w.host.since h } :=
  ⟨_, reached, rfl, dealings_deal ..⟩

theorem dealings_call (w : Traffic) (n : Nat) (d : Dealings) :
    (w.deal n w.host d).dealings n = d := by
  rw [dealings_deal, since_self, List.append_nil]

/-- While the host has done nothing, only what has happened last counts. -/
theorem deal_call (w : Traffic) (n : Nat) (h : Host) (d d' : Dealings) :
    (w.deal n w.host d).deal n h d' = w.deal n h d' := by
  simp [deal, Function.update_idem]

/-- After the host has done something, what has been told stays. -/
theorem call_deal (w : Traffic) (n : Nat) (h : Host) (d d' : Dealings) :
    (w.deal n h d).deal n h { d' with told := d'.told ++ w.host.since h } = w.deal n h d' := by
  simp [deal, Function.update_idem, since_self]

namespace Reached

/-- A session that has just been opened is registered. -/
theorem register (reached : (w.deal n h d).Reached) (visits : d.visits = [.opening]) :
    (w.deal n h { d with isKnown := true, visits := [.answered false] }).Reached := by
  have visits : ((w.deal n h d).dealings n).visits = [] ++ .opening :: [] := by
    rw [dealings_deal]
    exact visits
  have next := reached.step (.registers visits)
  rw [dealings_deal] at next
  exact call_deal w n h d { d with isKnown := true, visits := [.answered false] } ▸ next

/-- The only call returns. -/
theorem back (reached : (w.deal n h d).Reached) {isFatal : Bool}
    (visits : d.visits = [.answered isFatal]) :
    (w.deal n h { d with isKnown := d.isKnown && !isFatal, visits := [] }).Reached := by
  have visits : ((w.deal n h d).dealings n).visits = [] ++ .answered isFatal :: [] := by
    rw [dealings_deal]
    exact visits
  have next := reached.step (.returns visits)
  rw [dealings_deal] at next
  exact call_deal w n h d { d with isKnown := d.isKnown && !isFatal, visits := [] } ▸ next

/-- A message that is sent without delay. -/
theorem send (reached : (w.deal n w.host d).Reached) {m : Message}
    (visits : d.visits = [.holding m]) (runs : w.Runs n) :
    (w.deal n w.host { d with visits := [.sent m] }).Reached := by
  have visits : ((w.deal n w.host d).dealings n).visits = [] ++ .holding m :: [] := by
    rw [dealings_call]
    exact visits
  have next := reached.step (.sends visits runs)
  rw [dealings_call] at next
  exact deal_call w n w.host d { d with visits := [.sent m] } ▸ next

/-- An event that is taken without delay. -/
theorem answer (reached : (w.deal n w.host d).Reached) {e : Event}
    (visits : d.visits = [.sent (.submit e)]) (runs : w.Runs n)
    (submitted : w.host.submit n e = .ok (t, h)) :
    (w.deal n h { d with
      visits := [.answered t.isFatal]
      turns := d.turns ++ [(.event, t)] }).Reached := by
  have visits : ((w.deal n w.host d).dealings n).visits = [] ++ .sent (.submit e) :: [] := by
    rw [dealings_call]
    exact visits
  have next := reached.step (.answers visits (fun _ => List.not_mem_nil) runs submitted)
  rw [dealings_call] at next
  exact deal_call w n h d _ ▸ next

/-- The session is closed without delay, unless it has stopped. -/
theorem close (reached : (w.deal n w.host d).Reached) (visits : d.visits = [.holding .close]) :
    (w.deal n (w.host.forget n) { d with visits := [.answered false] }).Reached := by
  by_cases runs : w.Runs n
  · have sent := reached.send visits runs
    have visits : ((w.deal n w.host { d with visits := [.sent .close] }).dealings n).visits =
        [] ++ .sent .close :: [] := by
      rw [dealings_call]
      rfl
    have next := sent.step (.closes visits (fun _ => List.not_mem_nil) runs)
    rw [dealings_call] at next
    exact deal_call w n (w.host.forget n) _ _ ▸ next
  · have visits : ((w.deal n w.host d).dealings n).visits = [] ++ .holding .close :: [] := by
      rw [dealings_call]
      exact visits
    have next := reached.step (.misses visits (.inl rfl) runs)
    rw [dealings_call] at next
    exact deal_call w n (w.host.forget n) d _ ▸ next

/-! ## Calls that nothing comes between -/

variable {flows : List String} {context : Params} {e : Event}

/-- A session is opened. -/
theorem create (reached : w.Reached) (attended : w.isDropped = false)
    (created : w.host.create flows context = .ok (t, h)) :
    (w.deal w.host.opened h ⟨!t.isFatal, false, [], [(.activation, t)], []⟩).Reached := by
  have opens := reached.step (.opens attended created)
  cases fatal : t.isFatal with
  | true => simpa [Dealings.opened, fatal] using opens
  | false => exact (opens.register (by simp [Dealings.opened, fatal])).back rfl

/-- An event is given to a session. -/
theorem submit (reached : w.Reached) (found : w.lookUp n = .ok ())
    (idle : (w.dealings n).visits = []) (submitted : w.host.submit n e = .ok (t, h)) :
    (w.deal n h { w.dealings n with
      isKnown := !t.isFatal
      visits := []
      turns := (w.dealings n).turns ++ [(.event, t)] }).Reached := by
  have known := (reached.orderly.known_of_found found).1
  obtain ⟨r, resident, runs⟩ := Host.exists_of_submit submitted
  have finds := reached.step (.finds (e := e) found)
  have sent := finds.send (m := .submit e) (by simp [idle]) ⟨r, resident, runs⟩
  have returned := (sent.answer rfl ⟨r, resident, runs⟩ submitted).back rfl
  simpa [known] using returned

/-- A session is destroyed. -/
theorem destroy (reached : w.Reached) (found : w.lookUp n = .ok ())
    (idle : (w.dealings n).visits = []) (destroyed : w.host.destroy n = .ok h) :
    (w.deal n h { w.dealings n with
      isKnown := false
      isReleased := true
      visits := [] }).Reached := by
  have forgotten : w.host.forget n = h := by rw [Host.forget, destroyed]
  have withdraws := reached.step (.withdraws found)
  have returned := (withdraws.close (by simp [idle])).back rfl
  rw [forgotten] at returned
  exact returned

end Reached

end Traffic

/-! ## Hosts -/

theorem Instant.le_nextTick (t : Instant) : t ≤ t.nextTick := by
  show t.nanos ≤ (t.nanos + 999999) / 1000000 * 1000000
  omega

theorem Instant.le_trans {s t u : Instant} (h : s ≤ t) (h' : t ≤ u) : s ≤ u := Nat.le_trans h h'

theorem Appointment.mem_of_first? {a : Appointment} :
    ∀ {as : List Appointment}, first? as = some a → a ∈ as
  | b :: rest, h => by
    unfold first? at h
    split at h
    · next c first =>
      obtain rfl := Option.some.inj h
      split
      · exact List.mem_cons_of_mem b (mem_of_first? first)
      · exact List.mem_cons_self
    · obtain rfl := Option.some.inj h
      exact List.mem_cons_self

namespace Host

/-- What a host may do. -/
inductive Does (h : Host) : Host → Prop
  | create {flows context t h₁} (created : h.create flows context = .ok (t, h₁)) : Does h h₁
  | submit {n e t h₁} (submitted : h.submit n e = .ok (t, h₁)) : Does h h₁
  | destroy {n h₁} (destroyed : h.destroy n = .ok h₁) : Does h h₁
  | keep {a} (next : h.next? = some a) : Does h (h.keep a)
  | passes (t : Instant) : Does h { h with now := h.now.max t }
  | takeTurns (n : Nat) : Does h (h.takeTurns n).2
  | takeNotices : Does h h.takeNotices.2

/-- What a host may have done meanwhile. -/
inductive Serves (h : Host) : Host → Prop
  | refl : Serves h h
  | tail {h₁ h₂} (before : Serves h h₁) (next : h₁.Does h₂) : Serves h h₂

variable {h h₁ : Host} {n : Nat} {r : Resident}

theorem serves_keepUntil (target : Instant) : ∀ (patience : Nat) {h₁ : Host}, h.Serves h₁ →
    h.Serves (keepUntil target patience h₁)
  | 0, _, serves => serves
  | patience + 1, h₁, serves => by
    unfold keepUntil
    split
    · exact serves
    · next a next =>
      split
      · exact serves
      · exact serves_keepUntil target patience (serves.tail (.keep next))

/-- Time may pass in this way, and what is due is dealt with. -/
theorem Serves.runUntil (serves : h.Serves h₁) (target : Instant) :
    h.Serves (h₁.runUntil target) :=
  (serves_keepUntil target h₁.patience serves).tail (.passes target)

/-- What a host has to do next is due for a session that is run. -/
theorem expects_of_next? {a : Appointment} (next : h.next? = some a) :
    ∃ r, h.residents.get? a.session = some r ∧ r.isStopped = false ∧
      r.Expects (h.now.max a.time) a.due := by
  obtain ⟨⟨n, r⟩, entry, mem⟩ := List.mem_flatMap.1 (Appointment.mem_of_first? next)
  have resident := Table.mem_entries.1 entry
  have mem : a ∈ r.appointments n := mem
  unfold Resident.appointments at mem
  split at mem
  · cases mem
  · next runs =>
    rcases List.mem_append.1 mem with timeout | result
    · obtain ⟨deadline, waits, rfl⟩ := by simpa using timeout
      exact ⟨r, resident, Bool.eq_false_of_not_eq_true runs, deadline, waits,
        Instant.le_trans deadline.le_nextTick (Instant.le_max_right ..)⟩
    · obtain ⟨j, job, rfl⟩ := List.mem_map.1 result
      exact ⟨r, resident, Bool.eq_false_of_not_eq_true runs, j, job, rfl⟩

end Host

namespace Traffic

variable {w : Traffic} {n : Nat} {h : Host} {d : Dealings}

/-- No call is in progress, and callers find the sessions that the host has. -/
structure Alone (w : Traffic) : Prop where
  attended : w.isDropped = false
  idle : ∀ n, (w.dealings n).visits = []
  found : ∀ n, (w.dealings n).isKnown = w.host.residents.contains n

namespace Alone

/-- A caller who looks a session up is answered by the host. -/
theorem lookUp_eq (alone : w.Alone) (n : Nat) : w.lookUp n = w.host.subscribe n := by
  rw [Traffic.lookUp, Host.subscribe, alone.found]

theorem lookUp_of_resident (alone : w.Alone) {r : Resident}
    (resident : w.host.residents.get? n = some r) : w.lookUp n = .ok () := by
  rw [alone.lookUp_eq, Host.subscribe, Table.contains, resident]
  rfl

/-- Something has been done that concerns one session, and callers find the session if the host
still has it. -/
theorem deal (alone : w.Alone) {r? : Option Resident} {ns : List Notice} {k : Nat}
    (deals : ({ w.host with opened := k } : Host).Deals n r? ns h) (idle : d.visits = [])
    (found : d.isKnown = r?.isSome) : (w.deal n h d).Alone where
  attended := alone.attended
  idle m := by
    rcases eq_or_ne m n with rfl | other
    · rw [dealings_deal]
      exact idle
    · exact (congrArg Dealings.visits (Function.update_of_ne other ..)).trans (alone.idle m)
  found m := by
    show _ = h.residents.contains m
    rcases eq_or_ne m n with rfl | other
    · rw [dealings_deal, Table.contains, deals.self]
      exact found
    · rw [Table.contains, deals.others m other]
      exact (congrArg Dealings.isKnown (Function.update_of_ne other ..)).trans (alone.found m)

end Alone

/-- Whatever a host does may happen if calls overlap. -/
theorem Reached.exists_of_does (reached : w.Reached) (alone : w.Alone) (does : w.host.Does h) :
    ∃ w' : Traffic, w'.Reached ∧ w'.Alone ∧ w'.host = h := by
  -- Nobody else is between two steps, so a call that takes several steps takes them at once.
  cases does with
  | create created =>
    obtain ⟨s, -, -, r, -, -, deals⟩ := Host.deals_create created
    refine ⟨_, reached.create alone.attended created, alone.deal deals rfl ?_, rfl⟩
    split <;> simp [*]
  | submit submitted =>
    obtain ⟨r, resident, runs⟩ := Host.exists_of_submit submitted
    obtain ⟨s, -, r', -, -, deals⟩ := Host.deals_submit resident submitted
    refine ⟨_, reached.submit (alone.lookUp_of_resident resident) (alone.idle _) submitted,
      alone.deal deals rfl ?_, rfl⟩
    split <;> simp [*]
  | @destroy n h destroyed =>
    obtain ⟨r, resident⟩ := Host.exists_of_destroy destroyed
    obtain ⟨h', destroyed', deals⟩ := Host.deals_destroy resident
    obtain rfl := Except.ok.inj (destroyed.symm.trans destroyed')
    exact ⟨_, reached.destroy (alone.lookUp_of_resident resident) (alone.idle n) destroyed,
      alone.deal deals rfl rfl, rfl⟩
  | @keep a next =>
    obtain ⟨r, resident, runs, expects⟩ := Host.expects_of_next? next
    have orderly := reached.orderly
    have fit := (orderly.observed _ (orderly.opened_of_resident resident)).fit r resident
    obtain ⟨⟨t, s⟩, given⟩ := Due.exists_give ((fit.tick (w.host.now.max a.time)).isOpen runs)
      (w.host.now.max a.time) a.due
    obtain ⟨r', -, -, deals⟩ := Host.deals_keep resident given
    refine ⟨_, reached.step (.keeps resident runs expects given),
      alone.deal deals (alone.idle _) ?_, rfl⟩
    rw [Option.isSome_some]
    exact (alone.found _).trans (by rw [Table.contains, resident]; rfl)
  | passes t => exact ⟨_, reached.step (.passes t), ⟨alone.attended, alone.idle, alone.found⟩, rfl⟩
  | takeTurns n =>
    cases resident : w.host.residents.get? n with
    | none =>
      -- There is nobody to take turns from.
      have same : (w.host.takeTurns n).2 = w.host := by simp [Host.takeTurns, resident]
      exact ⟨w, reached, alone, same.symm⟩
    | some r =>
      refine ⟨_, reached.step (.follows resident),
        alone.deal (Host.deals_takeTurns resident) (alone.idle n) ?_, rfl⟩
      exact (alone.found n).trans (by rw [Table.contains, resident]; rfl)
  | takeNotices => exact ⟨_, reached.step .reads, ⟨alone.attended, alone.idle, alone.found⟩, rfl⟩

end Traffic

/-- What a host does may happen if calls overlap. -/
theorem Host.exists_traffic (library : FlowLibrary) (actions : Registry) (limits : Limits)
    (actionTimeout : Duration) (patience : Nat) {h : Host}
    (serves : (Host.new library actions limits actionTimeout patience).Serves h) :
    ∃ w : Traffic, w.Reached ∧ w.Alone ∧ w.host = h := by
  induction serves with
  | refl => exact ⟨_, .new library actions limits actionTimeout patience,
      ⟨rfl, fun _ => rfl, fun _ => rfl⟩, rfl⟩
  | tail _ next ih =>
    obtain ⟨w, reached, alone, rfl⟩ := ih
    exact reached.exists_of_does alone next

end Dialogue
