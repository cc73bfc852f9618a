import Dialogue.Host
import Dialogue.Proofs.Session.Conduct

/-!
# What a host does with one session

Whatever a host is told to do concerns one session. Its turn is run, the actions that it asks for
are begun, and its notices are passed on to the observers. After that the session is sound, it has
nothing more to tell, and it takes inputs in unless it has been stopped. The other sessions are left
alone.

## Main definitions

* `Resident.Fit` — a session between the inputs
* `Host.Deals` — a host has dealt with one session
* `Due.operation` — how a session deals with what is due

## Main results

* `Host.deals_create`, `Host.deals_submit`, `Host.deals_keep`, `Host.deals_destroy` — what a host
  does
-/

namespace Dialogue

/-! ## Sessions -/

namespace Session

variable {s s' : Session} {o : Operation} {t : Turn}

/-- What is left of a session when its requests and its notices have been taken. -/
def handOver (s : Session) : Session := s.takeRequests.2.takeNotices.2

theorem sound_handOver (hs : s.Sound) : s.handOver.Sound :=
  sound_apply (sound_apply hs .takeRequests) .takeNotices

theorem sound_of_perform? (hs : s.Sound) (h : s.perform? o = some (t, s')) : s'.Sound := by
  have applied : s.apply o = s' := by rw [apply_eq_perform?, h]
  exact applied ▸ sound_apply hs o

/-- A session that takes inputs takes each event. -/
theorem exists_submit (isOpen : s.checkOpen = .ok ()) (e : Event) : ∃ x, s.submit e = .ok x :=
  ⟨_, submit_eq isOpen e⟩

/-- It takes each result. -/
theorem exists_completeCall (isOpen : s.checkOpen = .ok ()) (call : CallId)
    (result : Except ActionError Value) : ∃ x, s.completeCall call result = .ok x :=
  ⟨_, completeCall_eq isOpen call result⟩

/-- Its timers can be fired. -/
theorem exists_fireTimers (isOpen : s.checkOpen = .ok ()) (now : Instant) :
    ∃ x, s.fireTimers now = .ok x :=
  ⟨_, fireTimers_eq isOpen now⟩

/-- Closing a session is told to the observers. -/
theorem notices_close (isOpen : s.isClosed = false) (reason : String) :
    (s.close reason).notices = s.notices.push (.sessionClosed reason) := by
  simp [close, isOpen, notify]

end Session

namespace Resident

/-- A session between the inputs: observers have been told everything, and inputs are taken in
unless the session has been stopped. -/
structure Fit (r : Resident) : Prop where
  sound : r.session.Sound
  told : r.session.notices = #[]
  isOpen : r.isStopped = false → r.session.checkOpen = .ok ()

variable {r r' : Resident} {s : Session} {o : Operation} {t : Turn}

theorem Fit.tick (h : r.Fit) (now : Instant) : Fit { r with session := r.session.tick now } :=
  ⟨Session.sound_tick h.sound now, h.told, h.isOpen⟩

/-- After a turn the session is fit again if it is stopped in the case that the turn was fatal. -/
theorem Fit.turn (h : r.Fit) (performed : r.session.perform? o = some (t, s))
    (session : r'.session = s.handOver) (stopped : t.isFatal = true → r'.isStopped = true) :
    r'.Fit where
  sound := session ▸ Session.sound_handOver (Session.sound_of_perform? h.sound performed)
  told := by rw [session]; rfl
  isOpen runs := by
    have serves := Session.serves_perform? h.sound performed
    have fault : s.fault = none := by
      rw [← serves.fault, ← Option.not_isSome_iff_eq_none]
      intro fatal
      rw [stopped fatal] at runs
      cases runs
    have isOpen := (Session.checkOpen_eq_ok_iff.1 (Session.checkOpen_of_perform? performed)).2
    rw [session]
    exact Session.checkOpen_eq_ok_iff.2 ⟨fault, serves.isClosed.trans isOpen⟩

/-- Nothing more is told when a session is closed. -/
theorem Fit.notices_close (h : r.Fit) (runs : r.isStopped = false) (reason : String) :
    (r.session.close reason).notices.toList = [.sessionClosed reason] := by
  rw [Session.notices_close (Session.checkOpen_eq_ok_iff.1 (h.isOpen runs)).2, h.told]
  rfl

/-- What a turn tells the observers of the session itself. -/
theorem Fit.announced (h : r.Fit) (performed : r.session.perform? o = some (t, s)) :
    s.notices.toList.filter Notice.isOfSession = o.announces := by
  have announced := (Session.serves_perform? h.sound performed).announced
  simpa [Session.announced, h.told] using announced

end Resident

namespace Due

/-- How a session deals with what is due. -/
def give (now : Instant) (s : Session) : Due → Except SessionError (Turn × Session)
  | timeout => s.fireTimers now
  | result j => s.completeCall j.call j.result

/-- The operation by which it does. -/
def operation (now : Instant) : Due → Operation
  | timeout => .fireTimers now
  | result j => .completeCall j.call j.result

variable {now : Instant} {s s' : Session} {t : Turn}

theorem perform?_operation {d : Due} (given : d.give now s = .ok (t, s')) :
    s.perform? (d.operation now) = some (t, s') := by
  cases d with
  | timeout =>
    have fired : s.fireTimers now = .ok (t, s') := given
    simp [operation, Session.perform?, fired, Except.toOption]
  | result j =>
    have completed : s.completeCall j.call j.result = .ok (t, s') := given
    simp [operation, Session.perform?, completed, Except.toOption]

theorem announces_operation (now : Instant) (d : Due) : (d.operation now).announces = [] := by
  cases d <;> rfl

/-- A session that takes inputs deals with all that is due. -/
theorem exists_give (isOpen : s.checkOpen = .ok ()) (now : Instant) (d : Due) :
    ∃ x, d.give now s = .ok x := by
  cases d with
  | timeout => exact Session.exists_fireTimers isOpen now
  | result j => exact Session.exists_completeCall isOpen j.call j.result

end Due

/-! ## Hosts -/

namespace Host

/-- The host has dealt with one session. Observers have been told of it, and what has become of it
is kept, if anything. -/
structure Deals (h : Host) (n : Nat) (r? : Option Resident) (ns : List Notice) (h' : Host) :
    Prop where
  self : h'.residents.get? n = r?
  others : ∀ m, m ≠ n → h'.residents.get? m = h.residents.get? m
  notices : h'.notices.toList = h.notices.toList ++ ns
  opened : h'.opened = h.opened

variable {h h₁ h' : Host} {n : Nat} {r : Resident} {r? : Option Resident} {ns : List Notice}
  {t : Turn} {s : Session}

/-- What a host has done depends on its sessions and notices alone. -/
theorem Deals.of_eq (d : h₁.Deals n r? ns h') (residents : h₁.residents = h.residents)
    (notices : h₁.notices = h.notices) (opened : h₁.opened = h.opened) : h.Deals n r? ns h' :=
  ⟨d.self, residents ▸ d.others, notices ▸ d.notices, d.opened.trans opened⟩

theorem deals_store (h : Host) (n : Nat) (r : Resident) : h.Deals n
    (some { r with session := r.session.takeNotices.2, order := h.waited })
    r.session.notices.toList (h.store n r) where
  self := h.residents.get?_insert_self n _
  others _ other := Table.get?_insert_of_ne other
  notices := Array.toList_append
  opened := rfl

theorem Deals.erase (d : h.Deals n r? ns h') :
    h.Deals n none ns { h' with residents := h'.residents.erase n } where
  self := by simp [Table.get?_erase]
  others m other := by
    rw [← d.others m other]
    simp [Table.get?_erase, other]
  notices := d.notices
  opened := d.opened

/-- After a turn actions are begun, and what is left of the session is kept. -/
theorem deals_dispatch (h : Host) (n : Nat) (r : Resident) (isStopped : Bool)
    (published : Array Turn) : ∃ r', r'.session = r.session.handOver ∧ r'.isStopped = isStopped ∧
      h.Deals n (some r') r.session.notices.toList
        ((h.dispatch r).1.store n { (h.dispatch r).2 with published, isStopped }) :=
  ⟨_, rfl, rfl, (deals_store (h.dispatch r).1 n
    { (h.dispatch r).2 with published, isStopped }).of_eq rfl rfl rfl⟩

/-! ## What a host is told -/

/-- An appointment is kept by a turn. The session is stopped if the turn was fatal. -/
theorem deals_keep {a : Appointment} (resident : h.residents.get? a.session = some r)
    (given : a.due.give (h.now.max a.time) (r.session.tick (h.now.max a.time)) = .ok (t, s)) :
    ∃ r', r'.session = s.handOver ∧ r'.isStopped = t.isFatal ∧
      h.Deals a.session (some r') s.notices.toList (h.keep a) := by
  let now : Host := { h with now := h.now.max a.time }
  -- The turn is published whatever has been due.
  have published (r : Resident) : ∃ r', r'.session = s.handOver ∧ r'.isStopped = t.isFatal ∧
      h.Deals a.session (some r') s.notices.toList (now.publish a.session r (.ok (t, s))) := by
    obtain ⟨r', session, stopped, deals⟩ := deals_dispatch now a.session { r with session := s }
      t.isFatal (if t.isQuiet then r.published else r.published.push t)
    exact ⟨r', session, stopped, deals.of_eq rfl rfl rfl⟩
  unfold keep
  simp only [resident]
  cases due : a.due with
  | timeout =>
    rw [due] at given
    have fired : (r.session.tick now.now).fireTimers now.now = .ok (t, s) := given
    rw [fired]
    exact published r
  | result j =>
    rw [due] at given
    have completed : (r.session.tick now.now).completeCall j.call j.result = .ok (t, s) := given
    simp only
    rw [completed]
    exact published _

/-- An event that is given to a session is answered with a turn. The session is dropped if the turn
was fatal. -/
theorem deals_submit {e : Event} (resident : h.residents.get? n = some r)
    (submitted : h.submit n e = .ok (t, h')) : ∃ s,
      (r.session.tick h.now).submit e = .ok (t, s) ∧
      ∃ r', r'.session = s.handOver ∧ r'.isStopped = false ∧
        h.Deals n (if t.isFatal then none else some r') s.notices.toList h' := by
  unfold submit at submitted
  simp only [resident] at submitted
  split at submitted
  · cases submitted
  · next runs =>
    cases taken : (r.session.tick h.now).submit e with
    | error err =>
      rw [taken] at submitted
      cases submitted
    | ok x =>
      obtain ⟨t', s⟩ := x
      rw [taken] at submitted
      obtain ⟨rfl, rfl⟩ := Prod.mk.inj (Except.ok.inj submitted)
      -- The session is put back, and what it has noticed is dispatched, before it may be dropped.
      obtain ⟨r', session, stopped, deals⟩ := deals_dispatch h n { r with session := s }
        r.isStopped r.published
      refine ⟨s, rfl, r', session, stopped.trans (Bool.eq_false_of_not_eq_true runs), ?_⟩
      split
      · exact deals.erase
      · exact deals

/-- Only a session that is run answers. -/
theorem exists_of_submit {e : Event} (submitted : h.submit n e = .ok (t, h')) :
    ∃ r, h.residents.get? n = some r ∧ r.isStopped = false := by
  unfold submit at submitted
  split at submitted
  · cases submitted
  · next r resident =>
    split at submitted
    · cases submitted
    · next runs => exact ⟨r, resident, Bool.eq_false_of_not_eq_true runs⟩

/-- A session that takes inputs in answers each event. -/
theorem exists_submit (resident : h.residents.get? n = some r) (runs : r.isStopped = false)
    (isOpen : r.session.checkOpen = .ok ()) (e : Event) : ∃ x, h.submit n e = .ok x := by
  obtain ⟨⟨t, s⟩, taken⟩ := Session.exists_submit (s := r.session.tick h.now) isOpen e
  exact ⟨_, by simp only [submit, resident, runs, taken]; rfl⟩

/-- A session that is opened is given the next number. It is not kept if its first turn was fatal.
-/
theorem deals_create {flows : List String} {context : Params}
    (created : h.create flows context = .ok (t, h')) : ∃ s,
      (((Session.new (toString h.opened) h.library h.limits context).tick h.now).start flows) =
        .ok (t, s) ∧ h'.opened = h.opened + 1 ∧
      ∃ r', r'.session = s.handOver ∧ r'.isStopped = false ∧
        ({ h with opened := h.opened + 1 } : Host).Deals h.opened
          (if t.isFatal then none else some r') s.notices.toList h' := by
  unfold create at created
  cases started : ((Session.new (toString h.opened) h.library h.limits context).tick h.now).start
      flows with
  | error e =>
    simp only [started, bind, Except.bind] at created
    cases created
  | ok x =>
    obtain ⟨t', s⟩ := x
    let h₁ : Host := { h with opened := h.opened + 1 }
    let r : Resident := ⟨s, [], false, 0, #[]⟩
    simp only [started, bind, Except.bind] at created
    split at created
    · next fatal =>
      obtain ⟨rfl, rfl⟩ := Prod.mk.inj (Except.ok.inj created)
      refine ⟨s, rfl, rfl, { r with session := s.handOver }, rfl, rfl, ?_⟩
      rw [if_pos fatal]
      -- A session whose first turn was fatal is stored and erased again.
      exact (deals_store h₁ h.opened r).erase
    · next fine =>
      obtain ⟨rfl, rfl⟩ := Prod.mk.inj (Except.ok.inj created)
      obtain ⟨r', session, stopped, deals⟩ := deals_dispatch h₁ h.opened r false #[]
      refine ⟨s, rfl, deals.opened, r', session, stopped, ?_⟩
      rw [if_neg fine]
      exact deals

/-- Only a session that is known is destroyed. -/
theorem exists_of_destroy (destroyed : h.destroy n = .ok h') :
    ∃ r, h.residents.get? n = some r := by
  unfold destroy at destroyed
  split at destroyed
  · cases destroyed
  · next r resident => exact ⟨r, resident⟩

/-- A session that is destroyed is closed, unless it has been stopped. It is not kept. -/
theorem deals_destroy (resident : h.residents.get? n = some r) : ∃ h', h.destroy n = .ok h' ∧
    h.Deals n none
      (if r.isStopped then r.session else r.session.close "destroyed").notices.toList h' := by
  unfold destroy
  simp only [resident]
  exact ⟨_, rfl, (deals_store h n { r with
    session := if r.isStopped then r.session else r.session.close "destroyed" }).erase⟩

end Host

end Dialogue
