import Dialogue.Proofs.Session.Arbitration
import Dialogue.Proofs.Session.Expectation

/-!
# Orphaned calls

A call is counted as long as its result is of use. So there should be somebody who expects it. But
an instance takes an event that tells of the end of its call whoever has made the event. If it does
not come with the result, the call is still pending when the wait comes to its end, and it is kept,
because it is taken to have had its result. From then on it is counted although nobody expects it,
also after its owner has come to its end.

There is no other way for a call to lose its owner: it is given up with the wait, or with the
instance.

## Main definitions

* `Candidate.Suits` — what is made of an event goes with an arm

## Main results

* `Cascade.told_of_mem_consumers` — a call ends a wait only by an event that tells of it
* `Cascade.told_of_forges` — a call loses its owner only by such an event, while it is pending
* `Session.expected_iff_not_forged` — a call that is of use is expected by its owner, unless its
  wait has come to its end because of it
* `Session.call_orphaned` — a call that is left over when no instance is live
-/

namespace Dialogue

theorem Calls.inFlight_eq_zero_iff {c : Calls} :
    c.inFlight = 0 ↔ ∀ k call, c.pending.get? k = some call → call.isCancelled = true := by
  rw [inFlight, Table.size, List.length_eq_zero_iff, List.eq_nil_iff_forall_not_mem]
  constructor
  · intro none k call hcall
    rw [← Bool.not_eq_false]
    intro alive
    exact none (k, call) (Table.mem_entries.2 (Table.get?_filter.2 ⟨hcall, by simp [alive]⟩))
  · rintro cancelled ⟨k, call⟩ hcall
    obtain ⟨pending, alive⟩ := Table.get?_filter.1 (Table.mem_entries.1 hcall)
    simp [cancelled k call pending] at alive

/-! ## What an event is taken for -/

/-- What is made of an event suits an arm: the event tells of the arm, or the arm has a pattern. -/
def Candidate.Suits (e : Event) (index : Nat) (a : Armed) : Candidate → Prop
  | .addressed r => r.kept? = some index ∧ a.IsToldBy e
  | .claim c => c.index = index ∧ a = .event

section Candidates

variable {e : Event} {a : Armed} {arm : Arm} {id : InstanceId} {scope : Scope} {found : Candidate}

theorem Arm.suits_of_candidate? {index : Nat}
    (h : arm.candidate? a id index e scope = .ok (some found)) : found.Suits e index a := by
  cases makes_candidate? h with
  | claims => exact ⟨rfl, rfl⟩
  | finished carried name => exact ⟨rfl, carried, .inl name⟩
  | failed carried name => exact ⟨rfl, carried, .inr name⟩
  | answered _ carried name => exact ⟨rfl, carried, .inl name⟩
  | refused _ carried name => exact ⟨rfl, carried, .inr name⟩

/-- What a suspended instance makes of an event suits one of its arms, unless time is up. -/
theorem Instance.suits_of_candidate? {i : Instance} {w : Wait} (hw : i.wait? = some w)
    (h : i.candidate? e scope = .ok (some found)) :
    (∃ handler, found = .addressed (.timeout handler)) ∨
      ∃ n a, w.arms[n]? = some a ∧ found.Suits e n a := by
  obtain ⟨w', s, hw', -, ⟨-, late⟩ | ⟨n, arm, a, -, ha, asked⟩⟩ := exists_of_candidate? h (by simp)
  · exact .inl ⟨s.onTimeout, Option.some.inj (Except.ok.inj late)⟩
  · obtain rfl := Option.some.inj (hw.symm.trans hw')
    exact .inr ⟨n, a, ha, Arm.suits_of_candidate? asked⟩

end Candidates

namespace Cascade

variable {c : Cascade} {e : Event} {id : InstanceId} {w : Wait} {k : CallId}

/-- If an event ends a wait because of a call, it tells of the call. -/
theorem told_of_mem_consumers (hs : c.toSession.Sound) {r : Resolution}
    (h : (id, r) ∈ c.consumers e) (hw : c.toSession.waitOf? id = some w) {n : Nat}
    (kept : r.kept? = some n) (hk : w.arms[n]? = some (.call k)) : (Armed.call k).IsToldBy e := by
  obtain ⟨i, hi, hwait⟩ := Option.bind_eq_some_iff.1 hw
  have made : ∀ {found}, (id, .ok (some found)) ∈ c.candidates e →
      (∃ handler, found = .addressed (.timeout handler)) ∨
        ∃ n a, w.arms[n]? = some a ∧ found.Suits e n a := by
    intro found h
    obtain ⟨i', hi', -, hc⟩ := (mem_candidates_iff hs).1 h
    obtain rfl := Option.some.inj (hi.symm.trans hi')
    exact Instance.suits_of_candidate? hwait hc
  rcases (mem_consumers_iff hs).1 h with addressed | ⟨claim, wins, rfl, rfl⟩
  · rcases made addressed with ⟨handler, late⟩ | ⟨m, a, hm, same, told⟩
    · cases late
      cases kept
    · obtain rfl := Option.some.inj (kept.symm.trans same)
      obtain rfl := Option.some.inj (hk.symm.trans hm)
      exact told
  -- An instance that has competed for the event goes on at an arm with a pattern.
  · have claimed := (mem_claims_iff hs).1 (wins_of_mem_winners hs wins).mem
    rcases made claimed with ⟨handler, late⟩ | ⟨m, a, hm, same, rfl⟩
    · cases late
    · obtain rfl := Option.some.inj kept
      rw [same, hm] at hk
      cases hk

theorem mem_foldHistory {σ α : Type*} {step : σ → α → σ} {moments : σ → α → List Moment}
    {m : Moment} : ∀ {s : σ} {as : List α}, m ∈ foldHistory step moments s as →
      ∃ pre a post, as = pre ++ a :: post ∧ m ∈ moments (pre.foldl step s) a
  | _, [], h => by cases h
  | s, a :: rest, h => by
    rcases List.mem_append.1 h with h | h
    · exact ⟨[], a, rest, rfl, h⟩
    · obtain ⟨pre, a', post, rfl, hm⟩ := mem_foldHistory h
      exact ⟨a :: pre, a', post, rfl, hm⟩

/-- The end of a wait is told when it is resolved. -/
theorem Resumes.of_mem_woken {j : InstanceId} {r : Resolution} {ms : List Moment}
    {kept target : Option Nat} {before after c' : Cascade} (h : Resumes c j r c' ms)
    (hm : .woken id w kept target before after ∈ ms) :
    j = id ∧ c.toSession.waitOf? id = some w ∧ r.kept? = kept ∧ before = c := by
  cases h with
  | stays => cases hm
  | ends => cases hm
  | advances hi hw =>
    rcases List.mem_cons.1 hm with heq | hm
    · obtain ⟨rfl, rfl, rfl, -, rfl, -⟩ := Moment.woken.inj heq
      exact ⟨rfl, Option.bind_eq_some_iff.2 ⟨_, hi, hw⟩, rfl, rfl⟩
    -- Whoever goes on is suspended at most.
    · cases (onlySuspends_stackHistory _ _ _ _ _ hm).2
  | fails hi hw =>
    obtain ⟨rfl, rfl, rfl, -, rfl, -⟩ := Moment.woken.inj (List.mem_singleton.1 hm)
    exact ⟨rfl, Option.bind_eq_some_iff.2 ⟨_, hi, hw⟩, rfl, rfl⟩

/-- If a wait comes to its end because of a call that is still pending, the event that is delivered
tells of the call, and the call has been pending when it was delivered. -/
theorem told_of_forges (h : c.Ready) {m : Moment} (hm : m ∈ c.deliverHistory e)
    (forges : m.Forges k) :
    (Armed.call k).IsToldBy e ∧ ∃ id, c.toSession.Stands id (.call k) := by
  have hs := h.orderly.sound
  rcases m with _ | ⟨id, w, kept, target, before, after⟩ | _
  · exact forges.elim
  · obtain ⟨n, rfl, hk, stands⟩ : ∃ n, kept = some n ∧ w.arms[n]? = some (.call k) ∧
        before.toSession.Stands id (.call k) := by
      cases kept with
      | none => exact forges.elim
      | some n => exact ⟨n, rfl, forges⟩
    rcases List.mem_cons.1 hm with heq | hm
    · cases heq
    obtain ⟨pre, ⟨j, r⟩, post, split, hm⟩ := mem_foldHistory hm
    obtain ⟨rfl, hw, kept, rfl⟩ := (resumes _ j r).of_mem_woken hm
    -- Until its turn the instance has not been woken, so it is still in the wait in which the event
    -- has found it.
    obtain ⟨-, ms, path, asleep⟩ := path_until_turn hs split
    have taken : (j, r) ∈ c.consumers e := split ▸ List.mem_append_right _ List.mem_cons_self
    obtain ⟨w₀, waiting⟩ := waits_of_mem_consumers hs taken
    obtain rfl := waitOf?_eq_of_path hs path asleep waiting hw
    obtain ⟨i, hi, hwait⟩ := Option.bind_eq_some_iff.1 waiting
    have issued := (hs.wait hi hwait).issued _ (List.mem_of_getElem? hk)
    exact ⟨told_of_mem_consumers hs taken waiting kept hk,
      j, (path.mono fun _ _ => .change).passes_later.stands issued stands⟩
  · exact forges.elim

end Cascade

namespace Session

variable {s : Session} {k : CallId}

/-- If some wait has come to its end because of a call that was still pending, an event that tells
of the call has been delivered while the call was pending. -/
theorem told_of_forged (h : s.openCascade.Ready) {os : List Operation}
    (forged : Moment.Forged (s.historyOf os) k) :
    ∃ e d id, .delivered e d ∈ s.historyOf os ∧ (Armed.call k).IsToldBy e ∧
      d.toSession.Stands id (.call k) := by
  obtain ⟨m, hm, forges⟩ := forged
  rcases delivery_of_mem_historyOf h hm with quiet | ⟨e, d, delivered, ready, hm⟩
  · exact absurd ⟨m, List.mem_singleton_self m, forges⟩ (quiet.not_forged k)
  · obtain ⟨told, id, stands⟩ := Cascade.told_of_forges ready hm forges
    exact ⟨e, d, id, delivered, told, stands⟩

/-- After every run, a call that is of use is expected by its owner exactly if no wait has come to
its end because of the call while it was pending. That takes an event that tells of the call and is
delivered before the result has come in. If there is none, no call is left when no instance is
live. -/
theorem expected_iff_not_forged (name : String) (library : FlowLibrary) (limits : Limits)
    (context : Params) (os : List Operation) :
    let s₀ := new name library limits context
    let s := s₀.applyAll os
    (∀ id k, s.Stands id (.call k) →
      (s.Expects id (.call k) ↔ ¬ Moment.Forged (s₀.historyOf os) k)) ∧
    (∀ k, Moment.Forged (s₀.historyOf os) k → ∃ e d id, .delivered e d ∈ s₀.historyOf os ∧
      (Armed.call k).IsToldBy e ∧ d.toSession.Stands id (.call k)) ∧
    ((∀ k, ¬ Moment.Forged (s₀.historyOf os) k) → (∀ id, s.instances.get? id = none) →
      s.calls.inFlight = 0) := by
  intro s₀ s
  have ready : s₀.openCascade.Ready := ready_new name library limits context
  have minds := minds_historyOf (s := s₀) ready.orderly.sound os
  have expected : ∀ id k, s.Stands id (.call k) →
      (s.Expects id (.call k) ↔ ¬ Moment.Forged (s₀.historyOf os) k) := by
    intro id k stands
    refine (minds.expects_iff id k stands).trans (and_iff_left_of_imp fun _ => .inr ?_)
    -- In the beginning there are no calls.
    refine Nat.lt_of_not_le fun old => ?_
    obtain ⟨call, hcall, -⟩ := minds.later.stands (a := .call k) old stands
    cases hcall
  refine ⟨expected, fun k forged => told_of_forged ready forged, fun honest gone => ?_⟩
  refine Calls.inFlight_eq_zero_iff.2 fun k call hcall => ?_
  rw [← Bool.not_eq_false]
  intro alive
  obtain ⟨w, hw, -⟩ := (expected call.owner k ⟨call, hcall, rfl, alive⟩).2 (honest k)
  rw [waitOf?, gone] at hw
  cases hw

/-- A flow that waits for the result of an action. -/
def askingFlows : List FlowDefinition := [⟨"asker", [], "", [.execute "lookup" ∅ none none]⟩]

/-- The flow takes an event of the user for the result of its action and comes to its end. Nothing
is live any more, but the call is still counted. -/
theorem call_orphaned :
    ∃ library, FlowLibrary.ofDefinitions Vocabulary.standard askingFlows = .ok library ∧
      let s := (new "session" library .standard ∅).applyAll [.start ["asker"], .takeRequests,
        .submit (.of EventName.actionFinished [("call_id", .ofNat 1)])]
      s.fault = none ∧ s.isClosed = false ∧ (∀ id, s.instances.get? id = none) ∧
        s.calls.inFlight = 1 := by
  have run : (FlowLibrary.ofDefinitions Vocabulary.standard askingFlows).toOption.any
      (fun library =>
        let s := (new "session" library .standard ∅).applyAll [.start ["asker"], .takeRequests,
          .submit (.of EventName.actionFinished [("call_id", .ofNat 1)])]
        s.fault.isNone && !s.isClosed && s.instances.entries.isEmpty &&
          s.calls.inFlight = 1) = true := by decide +kernel
  obtain ⟨library, loaded, run⟩ := exists_of_toOption_any run
  simp only [Bool.and_eq_true, decide_eq_true_eq, Option.isNone_iff_eq_none, Bool.not_eq_true',
    List.isEmpty_iff] at run
  obtain ⟨⟨⟨fault, isOpen⟩, gone⟩, counted⟩ := run
  refine ⟨library, loaded, fault, isOpen, fun id => ?_, counted⟩
  rw [Option.eq_none_iff_forall_ne_some]
  intro i hi
  have live := Table.mem_entries.2 hi
  rw [gone] at live
  cases live

end Session

end Dialogue
