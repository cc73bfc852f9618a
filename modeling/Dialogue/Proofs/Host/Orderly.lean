import Dialogue.Proofs.Host.Traffic

/-!
# What holds however calls overlap

Each session goes its own way: a step concerns one session, and the others stay as they are. So what
holds of a session is kept up by the steps that concern it. On the one hand this is about the
session and its observers, who are told when it is opened and when it is closed. On the other hand
it is about the callers, and whether they find the session.

## Main definitions

* `Observed` — the session and its observers
* `Listed` — the callers
* `Traffic.Orderly` — all sessions

## Main results

* `Traffic.Orderly.step` — what one step keeps up
* `Traffic.Reached.orderly` — what holds at all times
-/

namespace Dialogue

/-! ## The session and its observers -/

/-- What holds of a session that has been opened, and of what observers have been told of it. It
runs until a turn is fatal or until it is closed, and only in the second case they are told so. -/
structure Observed (r? : Option Resident) (d : Dealings) : Prop where
  fit : ∀ r, r? = some r → r.Fit
  last : ∀ x ∈ d.turns.dropLast, x.2.isFatal = false
  fine : Running r? → d.fatal? = none
  told : ∃ flows, (Running r? ∨ d.fatal?.isSome) ∧
      d.told.filter Notice.isOfSession = [.sessionOpened flows] ∨
    ¬ Running r? ∧ d.fatal? = none ∧
      ∃ reason, d.told.filter Notice.isOfSession = [.sessionOpened flows, .sessionClosed reason]

/-- What holds of a session that has been opened, and of the callers that may find it. They fail to
find it for three reasons only: it has been taken away, it has not been registered yet, or a caller
waits for a fatal turn (`awaited`). Until it has been registered, nobody else has to do with it
(`opening`). If it is still found after a caller has been answered with a fatal turn, that caller
has not returned yet (`poisoned`). -/
structure Listed (d : Dealings) : Prop where
  withdrawn : d.isReleased = true → d.isKnown = false
  awaited : d.isKnown = false →
    d.isReleased = true ∨ .opening ∈ d.visits ∨ ∃ c, d.fatal? = some c ∧ c.isAnswered = true
  opening : .opening ∈ d.visits → d.visits = [.opening] ∧ d.isKnown = false ∧
    d.isReleased = false ∧ ∀ c, d.fatal? = some c → c.isAnswered = false
  failed : d.fatal? = some .activation → d.isKnown = false ∧ d.visits = []
  poisoned : d.fatal? = some .event → d.isKnown = true → .answered true ∈ d.visits
  answered : .answered true ∈ d.visits → d.fatal? = some .event

namespace Dealings

theorem fatal?_eq_none_iff {d : Dealings} :
    d.fatal? = none ↔ ∀ x ∈ d.turns, x.2.isFatal = false := by
  simp [fatal?]

/-- Until a turn is fatal, the next one may be so. -/
theorem fatal?_append {d : Dealings} (fine : d.fatal? = none) (c : Cause) (t : Turn)
    (isKnown isReleased : Bool) (visits : List Visit) (told : List Notice) :
    fatal? ⟨isKnown, isReleased, visits, d.turns ++ [(c, t)], told⟩ =
      if t.isFatal then some c else none := by
  have before : d.turns.find? (fun x => x.2.isFatal) = none := by simpa [fatal?] using fine
  by_cases fatal : t.isFatal = true <;> simp [fatal?, List.find?_append, before, fatal]

end Dealings

theorem running_some {r : Resident} : Running (some r) ↔ r.isStopped = false :=
  ⟨fun ⟨_, same, runs⟩ => Option.some.inj same ▸ runs, fun runs => ⟨r, rfl, runs⟩⟩

theorem not_running_none : ¬ Running none := by
  rintro ⟨_, h, -⟩
  cases h

namespace Observed

variable {r? r'? : Option Resident} {d : Dealings} {ns : List Notice}

/-- A session is opened. -/
theorem opened {t : Turn} {flows : List String}
    (told : ns.filter Notice.isOfSession = [.sessionOpened flows])
    (fit : ∀ r, r? = some r → r.Fit) (stops : Running r? ↔ t.isFatal = false) :
    Observed r? { Dealings.opened t with told := ns } where
  fit := fit
  last _ mem := by cases mem
  fine runs := by simp [Dealings.fatal?, Dealings.opened, stops.1 runs]
  told := by
    refine ⟨flows, .inl ⟨?_, told⟩⟩
    rw [stops]
    cases fatal : t.isFatal <;> simp [Dealings.fatal?, Dealings.opened, fatal]

/-- A turn of a session that runs. -/
theorem turn (h : Observed r? d) (runs : Running r?) (c : Cause) {t : Turn}
    (isKnown isReleased : Bool) (visits : List Visit) (quiet : ns.filter Notice.isOfSession = [])
    (fit : ∀ r, r'? = some r → r.Fit) (stops : Running r'? ↔ t.isFatal = false) :
    Observed r'? ⟨isKnown, isReleased, visits, d.turns ++ [(c, t)], d.told ++ ns⟩ where
  fit := fit
  last x mem := by
    rw [List.dropLast_concat] at mem
    exact Dealings.fatal?_eq_none_iff.1 (h.fine runs) x mem
  fine runs' := by
    rw [Dealings.fatal?_append (h.fine runs)]
    simp [stops.1 runs']
  told := by
    obtain ⟨flows, ⟨-, told⟩ | ⟨not, -⟩⟩ := h.told
    · refine ⟨flows, .inl ⟨?_, by simp [told, quiet]⟩⟩
      rw [Dealings.fatal?_append (h.fine runs), stops]
      cases t.isFatal <;> simp
    · exact absurd runs not

/-- A session that runs is closed. -/
theorem close (h : Observed r? d) (runs : Running r?) (reason : String) (isKnown isReleased : Bool)
    (visits : List Visit) (closed : ns.filter Notice.isOfSession = [.sessionClosed reason]) :
    Observed none ⟨isKnown, isReleased, visits, d.turns, d.told ++ ns⟩ where
  fit _ h := by cases h
  last := h.last
  fine runs := absurd runs not_running_none
  told := by
    obtain ⟨flows, ⟨-, told⟩ | ⟨not, -⟩⟩ := h.told
    · exact ⟨flows, .inr ⟨not_running_none, h.fine runs, reason, by simp [told, closed]⟩⟩
    · exact absurd runs not

/-- What is left of a session that does not run any more is not kept. -/
theorem leave (h : Observed r? d) (stopped : ¬ Running r?) : Observed none d where
  fit _ h := by cases h
  last := h.last
  fine runs := absurd runs not_running_none
  told := by simpa [stopped, not_running_none] using h.told

/-- Which turns have been taken makes no difference. -/
theorem unread {r r' : Resident} (h : Observed (some r) d) (session : r'.session = r.session)
    (stopped : r'.isStopped = r.isStopped) : Observed (some r') d := by
  have runs : Running (some r') ↔ Running (some r) := by rw [running_some, running_some, stopped]
  refine ⟨fun k same => ?_, h.last, fun running => h.fine (runs.1 running),
    by simpa [runs] using h.told⟩
  obtain rfl := Option.some.inj same
  obtain ⟨sound, told, isOpen⟩ := h.fit r rfl
  rw [← session] at sound told isOpen
  exact ⟨sound, told, fun running => isOpen (stopped ▸ running)⟩

/-- The callers are none of the observers' business. -/
theorem mono (h : Observed r? d) (isKnown isReleased : Bool) (visits : List Visit) :
    Observed r? { d with isKnown, isReleased, visits } := ⟨h.fit, h.last, h.fine, h.told⟩

/-- Only the last turn of a session may have been fatal. -/
theorem fatal?_eq (h : Observed r? d) {c : Cause} {t : Turn} (mem : (c, t) ∈ d.turns)
    (fatal : t.isFatal = true) : d.fatal? = some c := by
  have some : d.turns ≠ [] := List.ne_nil_of_mem mem
  have whole := List.dropLast_concat_getLast some
  rw [← whole, List.mem_append, List.mem_singleton] at mem
  rcases mem with front | last
  · have fine := h.last _ front
    rw [fatal] at fine
    cases fine
  · have front : d.turns.dropLast.find? (fun x => x.2.isFatal) = none := by simpa using h.last
    rw [Dealings.fatal?, ← whole, List.find?_append, front, ← last]
    simp [fatal]

end Observed

/-! ## The callers -/

namespace Listed

variable {d : Dealings} {m : Message} {v : Visit} {front back next : List Visit}

/-- A call goes on or begins, without being answered. -/
theorem revisit (h : Listed d) {vs : List Visit} (told : List Notice)
    (present : d.isKnown = true ∨ d.visits ≠ []) (registered : .opening ∉ d.visits)
    (stays : .opening ∉ vs) (same : .answered true ∈ vs ↔ .answered true ∈ d.visits) :
    Listed { d with visits := vs, told } where
  withdrawn := h.withdrawn
  awaited unknown := by
    rcases h.awaited unknown with released | opening | fatal
    · exact .inl released
    · exact absurd opening registered
    · exact .inr (.inr fatal)
  opening opening := absurd opening stays
  failed fatal := by
    obtain ⟨unknown, none⟩ := h.failed fatal
    rcases present with known | some
    · exact absurd known (by simp [unknown])
    · exact absurd none some
  poisoned fatal known := same.2 (h.poisoned fatal known)
  answered answered := h.answered (same.1 answered)

/-- A session has been opened. -/
theorem opened (t : Turn) (told : List Notice) : Listed { Dealings.opened t with told } := by
  cases fatal : t.isFatal with
  | false => constructor <;> simp [Dealings.opened, Dealings.fatal?, fatal]
  | true => constructor <;> simp [Dealings.opened, Dealings.fatal?, fatal, Cause.isAnswered]

/-- Observers are none of the callers' business. -/
theorem mono (h : Listed d) (told : List Notice) : Listed { d with told } :=
  ⟨h.withdrawn, h.awaited, h.opening, h.failed, h.poisoned, h.answered⟩

/-- While a session is being registered, there is no other call. -/
theorem registered (h : Listed d) (visits : d.visits = front ++ v :: back) (other : v ≠ .opening) :
    .opening ∉ d.visits := by
  intro opening
  have alone := visits.symm.trans (h.opening opening).1
  have mem : v ∈ [Visit.opening] := alone ▸ List.mem_append_right front List.mem_cons_self
  exact other (List.mem_singleton.1 mem)

theorem registered_of_known (h : Listed d) (known : d.isKnown = true) : .opening ∉ d.visits := by
  intro opening
  rw [(h.opening opening).2.1] at known
  cases known

/-- Until a turn is fatal, no caller has been answered with one. -/
theorem unanswered (h : Listed d) (fine : d.fatal? = none) : .answered true ∉ d.visits := by
  intro answered
  have poisoned := h.answered answered
  rw [fine] at poisoned
  cases poisoned

/-- Until a turn is fatal, there are only two reasons why a session is not found. -/
theorem awaited_of_fine (h : Listed d) (fine : d.fatal? = none) (unknown : d.isKnown = false) :
    d.isReleased = true ∨ .opening ∈ d.visits := by
  rcases h.awaited unknown with released | opening | ⟨c, poisoned, -⟩
  · exact .inl released
  · exact .inr opening
  · rw [fine] at poisoned
    cases poisoned

/-- A call goes on that is under way, or it returns. -/
theorem proceed (h : Listed d) (told : List Notice) (visits : d.visits = front ++ v :: back)
    (underway : v.isUnderway = true) (later : ∀ u ∈ next, u.isUnderway = true) :
    Listed { d with visits := front ++ back ++ next, told } := by
  have registered : .opening ∉ d.visits := h.registered visits (by rintro rfl; cases underway)
  have unanswered : .answered true ≠ v := by
    rintro rfl
    cases underway
  have stays : .opening ∉ next := fun mem => by cases later _ mem
  have same : .answered true ∉ next := fun mem => by cases later _ mem
  refine h.revisit told (.inr (by simp [visits])) registered ?_ ?_
  · simp only [visits, List.mem_append, List.mem_cons, not_or] at registered
    simp [registered, stays]
  · simp [visits, same, unanswered]

/-- A session is found. -/
theorem find (h : Listed d) (told : List Notice) (known : d.isKnown = true) (m : Message) :
    Listed { d with visits := d.visits ++ [.holding m], told } := by
  have registered := h.registered_of_known known
  exact h.revisit told (.inl known) registered (by simp [registered]) (by simp)

/-- A session is taken away. -/
theorem release (h : Listed d) (registered : .opening ∉ d.visits) :
    Listed { d with isKnown := false, isReleased := true } where
  withdrawn _ := rfl
  awaited _ := .inl rfl
  opening opening := absurd opening registered
  failed fatal := ⟨rfl, (h.failed fatal).2⟩
  poisoned _ known := by cases known
  answered := h.answered

/-- A session is registered. -/
theorem register (h : Listed d) (told : List Notice)
    (visits : d.visits = front ++ .opening :: back) : Listed { d with
      isKnown := true
      visits := front ++ back ++ [.answered false]
      told } := by
  have opening : .opening ∈ d.visits := visits ▸ List.mem_append_right front List.mem_cons_self
  obtain ⟨alone, -, kept, unanswered⟩ := h.opening opening
  have empty : front ++ back = [] := by
    have lengths := congrArg List.length (visits.symm.trans alone)
    rw [List.length_append, List.length_cons, List.length_singleton] at lengths
    exact List.eq_nil_of_length_eq_zero (by rw [List.length_append]; omega)
  rw [empty]
  exact {
    withdrawn released := by
      rw [kept] at released
      cases released
    awaited unknown := by cases unknown
    opening opening := by simp at opening
    failed fatal := by cases unanswered _ fatal
    poisoned fatal := by cases unanswered _ fatal
    answered answered := by simp at answered }

/-- Something that is due leads to a turn. If the turn is fatal, nobody learns of it. -/
theorem keep (h : Listed d) (told : List Notice) (fine : d.fatal? = none) {c : Cause}
    (unanswered : c.isAnswered = false) (t : Turn) :
    Listed { d with turns := d.turns ++ [(c, t)], told } := by
  -- If any turn is fatal, it is this one.
  have fatal {c' : Cause} (fatal : ({ d with turns := d.turns ++ [(c, t)], told } :
      Dealings).fatal? = some c') : c' = c := by
    rw [Dealings.fatal?_append fine] at fatal
    split at fatal
    · exact (Option.some.inj fatal).symm
    · cases fatal
  exact {
    withdrawn := h.withdrawn
    awaited unknown := (h.awaited_of_fine fine unknown).imp_right .inl
    opening opening := by
      obtain ⟨alone, unknown, kept, -⟩ := h.opening opening
      exact ⟨alone, unknown, kept, fun c poisoned => fatal poisoned ▸ unanswered⟩
    failed poisoned := by
      rw [← fatal poisoned] at unanswered
      cases unanswered
    poisoned poisoned := by
      rw [← fatal poisoned] at unanswered
      cases unanswered
    answered answered := absurd answered (h.unanswered fine) }

/-- An event is answered with a turn. -/
theorem answer (h : Listed d) (told : List Notice) (fine : d.fatal? = none)
    (visits : d.visits = front ++ .sent m :: back) (t : Turn) : Listed { d with
      visits := front ++ back ++ [.answered t.isFatal]
      turns := d.turns ++ [(.event, t)]
      told } := by
  -- A call is in progress, so the session has been registered.
  have registered := h.registered visits (by simp)
  have unanswered := h.unanswered fine
  simp only [visits, List.mem_append, List.mem_cons, not_or] at registered unanswered
  have fatal := Dealings.fatal?_append fine .event t d.isKnown d.isReleased
    (front ++ back ++ [.answered t.isFatal]) told
  exact {
    withdrawn := h.withdrawn
    awaited unknown := by
      rcases h.awaited_of_fine fine unknown with released | opening
      · exact .inl released
      · simp [visits, registered] at opening
    opening opening := by simp [registered] at opening
    failed poisoned := by
      rw [fatal] at poisoned
      simp at poisoned
    poisoned poisoned _ := by
      rw [fatal] at poisoned
      split at poisoned
      · next isFatal => simp [isFatal]
      · cases poisoned
    answered answered := by
      rw [fatal]
      simpa [unanswered] using answered }

/-- A call returns. -/
theorem leave (h : Listed d) (told : List Notice) {isFatal : Bool}
    (visits : d.visits = front ++ .answered isFatal :: back) : Listed { d with
      isKnown := d.isKnown && !isFatal
      visits := front ++ back
      told } := by
  cases isFatal with
  | false =>
    have returned := h.proceed told visits rfl (List.forall_mem_nil _)
    simpa using returned
  | true =>
    have registered := h.registered visits (by simp)
    have fatal := h.answered (visits ▸ List.mem_append_right front List.mem_cons_self)
    simp only [visits, List.mem_append, List.mem_cons, not_or] at registered
    exact {
      withdrawn _ := Bool.and_false _
      awaited _ := .inr (.inr ⟨.event, fatal, rfl⟩)
      opening opening := by simp [registered] at opening
      failed failed := by
        have failed := fatal.symm.trans failed
        cases failed
      poisoned _ known := by simp at known
      answered _ := fatal }

end Listed

/-! ## All sessions -/

/-- Nothing has been told of a session that has not been opened. -/
structure Unopened (r? : Option Resident) (d : Dealings) : Prop where
  absent : r? = none
  unknown : d.isKnown = false
  visits : d.visits = []
  turns : d.turns = []
  told : d.told = []

namespace Host

variable {h h' : Host} {n : Nat} {r : Resident} {r? : Option Resident} {ns : List Notice}

theorem deals_self (h : Host) (n : Nat) : h.Deals n (h.residents.get? n) [] h :=
  ⟨rfl, fun _ _ => rfl, (List.append_nil _).symm, rfl⟩

theorem Deals.since (deals : h.Deals n r? ns h') : h.since h' = ns := by
  simp [Host.since, deals.notices]

theorem deals_forget (resident : h.residents.get? n = some r) : h.Deals n none
    (if r.isStopped then r.session else r.session.close "destroyed").notices.toList
      (h.forget n) := by
  obtain ⟨h', destroyed, deals⟩ := deals_destroy resident
  rw [forget, destroyed]
  exact deals

/-- What has been left of a session that has stopped may be thrown away. -/
theorem deals_miss (m : Message) (stopped : ¬ Running (h.residents.get? n))
    (fit : ∀ r, h.residents.get? n = some r → r.Fit) :
    ∃ r?, (r? = none ∨ r? = h.residents.get? n) ∧ h.Deals n r? [] (h.miss n m) := by
  cases m with
  | submit e => exact ⟨_, .inr rfl, h.deals_self n⟩
  | close =>
    cases resident : h.residents.get? n with
    | none =>
      have same : h.miss n .close = h := by simp [miss, forget, destroy, resident]
      exact ⟨none, .inl rfl, by rw [same, ← resident]; exact h.deals_self n⟩
    | some r =>
      have isStopped : r.isStopped = true := by
        rw [resident, running_some, Bool.not_eq_false] at stopped
        exact stopped
      have deals := deals_forget resident
      rw [if_pos isStopped, (fit r resident).told] at deals
      exact ⟨none, .inl rfl, deals⟩

theorem deals_takeTurns (resident : h.residents.get? n = some r) :
    h.Deals n (some { r with published := #[] }) [] (h.takeTurns n).2 := by
  unfold takeTurns
  simp only [resident]
  exact ⟨h.residents.get?_insert_self n _, fun _ other => Table.get?_insert_of_ne other,
    (List.append_nil _).symm, rfl⟩

theorem deals_abandon (h : Host) (n : Nat) (r : Resident) : h.Deals n none
    (r.session.close "runtime dropped").notices.toList (h.abandon n r) :=
  (deals_store h n { r with session := r.session.close "runtime dropped" }).erase

end Host

namespace Traffic

variable {w w' : Traffic} {n : Nat} {r : Resident} {r? : Option Resident} {ns : List Notice}
  {h : Host} {d : Dealings}

/-- What holds of each session at all times. -/
structure Orderly (w : Traffic) : Prop where
  observed : ∀ n, n < w.host.opened → Observed (w.host.residents.get? n) (w.dealings n)
  listed : ∀ n, n < w.host.opened → Listed (w.dealings n)
  unopened : ∀ n, w.host.opened ≤ n → Unopened (w.host.residents.get? n) (w.dealings n)

namespace Orderly

theorem known_of_found (o : w.Orderly) (found : w.lookUp n = .ok ()) :
    (w.dealings n).isKnown = true ∧ n < w.host.opened := by
  have known : (w.dealings n).isKnown = true := by
    unfold lookUp at found
    split at found
    · assumption
    · cases found
  refine ⟨known, Nat.lt_of_not_le fun before => ?_⟩
  rw [(o.unopened n before).unknown] at known
  cases known

theorem opened_of_visits (o : w.Orderly) {v : Visit} {front back : List Visit}
    (visits : (w.dealings n).visits = front ++ v :: back) : n < w.host.opened :=
  Nat.lt_of_not_le fun before => by simp [(o.unopened n before).visits] at visits

theorem opened_of_resident (o : w.Orderly) (resident : w.host.residents.get? n = some r) :
    n < w.host.opened :=
  Nat.lt_of_not_le fun before => by
    rw [(o.unopened n before).absent] at resident
    cases resident

/-- One session has been dealt with, which may be the only one that has been opened meanwhile. -/
theorem deal_of_opened (o : w.Orderly) {k : Nat} (opened : n < k)
    (only : ∀ m, m ≠ n → (m < k ↔ m < w.host.opened))
    (deals : ({ w.host with opened := k } : Host).Deals n r? ns h)
    (observed : Observed r? { d with told := d.told ++ ns })
    (listed : Listed { d with told := d.told ++ ns }) : (w.deal n h d).Orderly := by
  have self : (w.deal n h d).dealings n = { d with told := d.told ++ ns } := by
    have since : w.host.since h = ns := deals.since
    rw [← since]
    exact Function.update_self ..
  have others {m : Nat} (other : m ≠ n) : (w.deal n h d).dealings m = w.dealings m :=
    Function.update_of_ne other ..
  have residents {m : Nat} (other : m ≠ n) :
      (w.deal n h d).host.residents.get? m = w.host.residents.get? m := deals.others m other
  have count : (w.deal n h d).host.opened = k := deals.opened
  -- What is asked for of the session itself is given; the other sessions are as they were.
  refine ⟨fun m before => ?_, fun m before => ?_, fun m after => ?_⟩
  · rcases eq_or_ne m n with rfl | other
    · rw [self]
      exact deals.self ▸ observed
    · rw [others other, residents other]
      exact o.observed m ((only m other).1 (count ▸ before))
  · rcases eq_or_ne m n with rfl | other
    · rw [self]
      exact listed
    · rw [others other]
      exact o.listed m ((only m other).1 (count ▸ before))
  · have other : m ≠ n := by omega
    rw [others other, residents other]
    exact o.unopened m (Nat.le_of_not_lt fun before => by
      have := (only m other).2 before
      omega)

/-- One session has been dealt with. -/
theorem deal (o : w.Orderly) (opened : n < w.host.opened) (deals : w.host.Deals n r? ns h)
    (observed : Observed r? { d with told := d.told ++ ns })
    (listed : Listed { d with told := d.told ++ ns }) : (w.deal n h d).Orderly :=
  o.deal_of_opened opened (fun _ _ => .rfl) deals observed listed

/-- A call has gone on. -/
theorem call (o : w.Orderly) (opened : n < w.host.opened) {isKnown isReleased : Bool}
    {visits : List Visit}
    (listed : Listed { w.dealings n with
      isKnown, isReleased, visits, told := (w.dealings n).told ++ [] }) :
    (w.deal n w.host { w.dealings n with isKnown, isReleased, visits }).Orderly := by
  refine o.deal opened (w.host.deals_self n) ?_ listed
  have told := (o.observed n opened).mono isKnown isReleased visits
  rwa [← List.append_nil (w.dealings n).told] at told

theorem follows (o : w.Orderly) (resident : w.host.residents.get? n = some r) :
    (w.deal n (w.host.takeTurns n).2 (w.dealings n)).Orderly := by
  have opened := o.opened_of_resident resident
  have observed := o.observed n opened
  rw [resident] at observed
  refine o.deal opened (Host.deals_takeTurns resident) ?_ ((o.listed n opened).mono _)
  rw [List.append_nil]
  exact observed.unread rfl rfl

/-- What is left of a session after a turn of it that has been answered. -/
theorem kept {t : Turn} {s : Session} {o : Operation} {r' : Resident} (fit : r.Fit)
    (performed : r.session.perform? o = some (t, s)) (session : r'.session = s.handOver)
    (runs : r'.isStopped = false) :
    (∀ k, (if t.isFatal then none else some r') = some k → k.Fit) ∧
      (Running (if t.isFatal then none else some r') ↔ t.isFatal = false) := by
  cases fatal : t.isFatal with
  | false =>
    refine ⟨fun k same => ?_, by simp [running_some, runs]⟩
    obtain rfl := Option.some.inj same
    exact fit.turn performed session (by simp [fatal])
  | true => exact ⟨fun k same => (by cases same), by simp [not_running_none]⟩

theorem opens (o : w.Orderly) {flows : List String} {context : Params} {t : Turn}
    (created : w.host.create flows context = .ok (t, h)) :
    (w.deal w.host.opened h (.opened t)).Orderly := by
  obtain ⟨s, started, -, r', session, runs, deals⟩ := Host.deals_create created
  let r : Resident := ⟨(Session.new (toString w.host.opened) w.host.library w.host.limits
    context).tick w.host.now, [], false, 0, #[]⟩
  have fit : r.Fit := ⟨Session.sound_tick (Session.sound_new ..) _, rfl, fun _ => rfl⟩
  have performed : r.session.perform? (.start flows) = some (t, s) := by
    show (r.session.start flows).toOption = _
    rw [started]
    rfl
  obtain ⟨fit', stops⟩ := kept fit performed session runs
  exact o.deal_of_opened (Nat.lt_succ_self _) (fun m other => by omega) deals
    (.opened (fit.announced performed) fit' stops) (.opened t _)

theorem misses (o : w.Orderly) {m : Message} {v : Visit} {front back : List Visit}
    (visits : (w.dealings n).visits = front ++ v :: back) (asks : v = .holding m ∨ v = .sent m)
    (stopped : ¬ w.Runs n) : (w.deal n (w.host.miss n m) { w.dealings n with
      visits := front ++ back ++ [.answered false] }).Orderly := by
  have opened := o.opened_of_visits visits
  have observed := o.observed n opened
  have underway : v.isUnderway = true := by rcases asks with rfl | rfl <;> rfl
  obtain ⟨r?, left, deals⟩ := Host.deals_miss m stopped observed.fit
  refine o.deal opened deals ?_ ((o.listed n opened).proceed _ visits underway
    (by simp [Visit.isUnderway]))
  rw [List.append_nil]
  rcases left with rfl | rfl
  · exact (observed.leave stopped).mono _ _ _
  · exact observed.mono _ _ _

theorem answers (o : w.Orderly) {e : Event} {front back : List Visit} {t : Turn}
    (visits : (w.dealings n).visits = front ++ .sent (.submit e) :: back) (runs : w.Runs n)
    (submitted : w.host.submit n e = .ok (t, h)) : (w.deal n h { w.dealings n with
      visits := front ++ back ++ [.answered t.isFatal]
      turns := (w.dealings n).turns ++ [(.event, t)] }).Orderly := by
  have opened := o.opened_of_visits visits
  have observed := o.observed n opened
  obtain ⟨r, resident, -⟩ := id runs
  obtain ⟨s, taken, r', session, runs', deals⟩ := Host.deals_submit resident submitted
  have fit := (observed.fit r resident).tick w.host.now
  have performed : (r.session.tick w.host.now).perform? (.submit e) = some (t, s) := by
    simp [Session.perform?, taken, Except.toOption]
  obtain ⟨fit', stops⟩ := kept fit performed session runs'
  exact o.deal opened deals (observed.turn runs .event _ _ _ (fit.announced performed) fit' stops)
    ((o.listed n opened).answer _ (observed.fine runs) visits t)

theorem closes (o : w.Orderly) {front back : List Visit}
    (visits : (w.dealings n).visits = front ++ .sent .close :: back) (runs : w.Runs n) :
    (w.deal n (w.host.forget n) { w.dealings n with
      visits := front ++ back ++ [.answered false] }).Orderly := by
  have opened := o.opened_of_visits visits
  have observed := o.observed n opened
  obtain ⟨r, resident, runs'⟩ := id runs
  have deals := Host.deals_forget resident
  rw [if_neg (by simp [runs']), (observed.fit r resident).notices_close runs'] at deals
  exact o.deal opened deals (observed.close runs "destroyed" _ _ _ rfl)
    ((o.listed n opened).proceed _ visits rfl (by simp [Visit.isUnderway]))

theorem keeps (o : w.Orderly) {a : Appointment} {t : Turn} {s : Session}
    (resident : w.host.residents.get? a.session = some r) (runs : r.isStopped = false)
    (given : a.due.give (w.host.now.max a.time) (r.session.tick (w.host.now.max a.time)) =
      .ok (t, s)) :
    (w.deal a.session (w.host.keep a) { w.dealings a.session with
      turns := (w.dealings a.session).turns ++ [(a.due.cause, t)] }).Orderly := by
  have opened := o.opened_of_resident resident
  have observed := o.observed _ opened
  have running : Running (w.host.residents.get? a.session) := ⟨r, resident, runs⟩
  have fit := (observed.fit r resident).tick (w.host.now.max a.time)
  have performed := Due.perform?_operation given
  obtain ⟨r', session, stopped, deals⟩ := Host.deals_keep resident given
  have quiet := (fit.announced performed).trans (Due.announces_operation _ _)
  refine o.deal opened deals (observed.turn running _ _ _ _ quiet ?_ ?_)
    ((o.listed _ opened).keep _ (observed.fine running) (by cases a.due <;> rfl) t)
  · intro k same
    obtain rfl := Option.some.inj same
    exact fit.turn performed session (by simp [stopped])
  · rw [running_some, stopped]

theorem abandons (o : w.Orderly) (resident : w.host.residents.get? n = some r)
    (runs : r.isStopped = false) : (w.deal n (w.host.abandon n r) (w.dealings n)).Orderly := by
  have opened := o.opened_of_resident resident
  have observed := o.observed n opened
  have deals := w.host.deals_abandon n r
  rw [(observed.fit r resident).notices_close runs] at deals
  exact o.deal opened deals
    (observed.close ⟨r, resident, runs⟩ "runtime dropped" _ _ _ rfl)
    ((o.listed n opened).mono _)

/-- What holds of each session is kept up by all that may happen. -/
theorem step (o : w.Orderly) (next : w.Step w') : w'.Orderly := by
  cases next with
  | passes t => exact ⟨o.observed, o.listed, o.unopened⟩
  | opens attended created => exact o.opens created
  | @registers n front back visits =>
    have opened := o.opened_of_visits visits
    exact o.call opened ((o.listed n opened).register _ visits)
  | @finds n e found =>
    obtain ⟨known, opened⟩ := o.known_of_found found
    exact o.call opened ((o.listed n opened).find _ known _)
  | @withdraws n found =>
    obtain ⟨known, opened⟩ := o.known_of_found found
    have found := (o.listed n opened).find ((w.dealings n).told ++ []) known .close
    exact o.call opened (found.release (found.registered_of_known known))
  | @sends n m front back visits runs =>
    have opened := o.opened_of_visits visits
    exact o.call opened ((o.listed n opened).proceed _ visits rfl (by simp [Visit.isUnderway]))
  | misses visits asks stopped => exact o.misses visits asks stopped
  | answers visits first runs submitted => exact o.answers visits runs submitted
  -- A session that is run takes inputs in, so it refuses nothing.
  | @refuses n e front back err visits first runs submitted =>
    obtain ⟨r, resident, runs⟩ := runs
    have fit := (o.observed n (o.opened_of_visits visits)).fit r resident
    obtain ⟨x, taken⟩ := Host.exists_submit resident runs (fit.isOpen runs) e
    cases submitted.symm.trans taken
  | closes visits first runs => exact o.closes visits runs
  | keeps resident runs expected given => exact o.keeps resident runs given
  | @breaks a r err resident runs expected given =>
    have fit := (o.observed _ (o.opened_of_resident resident)).fit r resident
    obtain ⟨x, taken⟩ := Due.exists_give ((fit.tick (w.host.now.max a.time)).isOpen runs)
      (w.host.now.max a.time) a.due
    cases given.symm.trans taken
  | @returns n isFatal front back visits =>
    have opened := o.opened_of_visits visits
    exact o.call opened ((o.listed n opened).leave _ visits)
  | follows resident => exact o.follows resident
  | reads => exact ⟨o.observed, o.listed, o.unopened⟩
  | drops idle =>
    refine ⟨fun n opened => (o.observed n opened).mono _ _ _, fun n opened => ?_,
      fun n before => ?_⟩
    · exact (o.listed n opened).release (by simp [idle n])
    · obtain ⟨absent, -, visits, turns, told⟩ := o.unopened n before
      exact ⟨absent, rfl, visits, turns, told⟩
  | abandons dropped resident runs => exact o.abandons resident runs

end Orderly

theorem Reached.orderly (reached : w.Reached) : w.Orderly := by
  induction reached with
  | new library actions limits actionTimeout patience =>
    exact ⟨fun n before => absurd before (Nat.not_lt_zero n),
      fun n before => absurd before (Nat.not_lt_zero n), fun n _ => ⟨rfl, rfl, rfl, rfl, rfl⟩⟩
  | step _ next ih => exact ih.step next

end Traffic

end Dialogue
