import Dialogue.Proofs.Session.Announcement
import Dialogue.Proofs.Session.Forest

/-!
# Deliveries of a turn

An event is delivered when all that followed from the last one is settled. Nothing runs at that
time, so what the suspended instances make of the event says who takes it: those to which it is
addressed, and those whose claims succeed. They go on in the order in which they have begun.

The history of a turn is the history of its deliveries, one after the other. Instances that run
before the first of them are not woken, since none of them has been suspended for an event.

## Main definitions

* `Session.Orderly` — all that holds of a session at any time
* `Cascade.Ready` — what holds when an event is delivered
* `Cascade.IsAddressed`, `Cascade.IsBroken` — what an instance makes of an event
* `Claim.Wins` — who succeeds among those who compete for an event
* `Moment.deliveries`, `Moment.wakings` — what a history tells of deliveries and of wakings
* `Moment.delivers` — the delivery that is looked for in a history

## Main results

* `mem_winners_iff` — the claims that succeed are those that win
* `Cascade.mem_consumers_iff`, `Cascade.pairwise_consumers` — who takes an event, and in which order
* `Session.history_eq_deliveries` — the history of an operation is that of its deliveries
* `Session.delivery_of_mem_historyOf` — what a run tells of wakings comes of its deliveries
-/

namespace Dialogue

/-! ## What an instance awaits -/

/-- What an instance awaits are children of its own, which may not outlive it. -/
def Session.Awaits (s : Session) (id : InstanceId) (arms : List Armed) : Prop :=
  ∀ k, .child k ∈ arms → k.number ≤ s.created ∧
    ∀ j, s.instances.get? k = some j → j.parent = some id ∧ j.isDetached = false

/-- Every suspended instance awaits children of its own. -/
def Session.AwaitsOwn (s : Session) : Prop :=
  ∀ id w, s.waitOf? id = some w → s.Awaits id w.arms

theorem Session.Awaits.later {s s' : Session} {id : InstanceId} {arms : List Armed}
    (h : s.Awaits id arms) (l : s.Later s') : s'.Awaits id arms := by
  intro k hk
  obtain ⟨begun, own⟩ := h k hk
  refine ⟨Nat.le_trans begun l.created, fun j' hj' => ?_⟩
  obtain ⟨j, hj, hd, hp, -⟩ := l.instances k j' begun hj'
  obtain ⟨parent, attached⟩ := own j hj
  exact ⟨(hp attached).trans parent, hd.trans attached⟩

/-- All that holds of a session at any time. -/
structure Session.Orderly (s : Session) : Prop where
  sound : s.Sound
  linked : s.Linked
  kinship : s.Kinship
  awaitsOwn : s.AwaitsOwn

namespace Cascade

variable {c c' : Cascade} {id : InstanceId} {w : Wait}

theorem Passes.awaitsOwn (h : c.Passes c') (ha : c.toSession.AwaitsOwn) :
    c'.toSession.AwaitsOwn :=
  fun id w hw => (ha id w (h.waitOf?_of hw)).later h.later

theorem Suspends.awaitsOwn (h : c.Suspends id w c') (hs : c.toSession.Sound)
    (ha : c.toSession.AwaitsOwn) : c'.toSession.AwaitsOwn := by
  have later := h.later
  intro k w' hw'
  by_cases hk : k = id
  · subst hk
    obtain rfl := Option.some.inj (h.waitOf?_self.symm.trans hw')
    obtain ⟨-, -, -, stands, -, attached⟩ := h
    have own : c.toSession.Awaits k w.arms := by
      refine fun child hchild => ⟨hs.isIssued (stands _ hchild), fun j hj => ?_⟩
      obtain ⟨j₀, hj₀, hp⟩ := stands _ hchild
      obtain rfl := Option.some.inj (hj₀.symm.trans hj)
      exact ⟨hp, attached child (List.mem_filterMap.2 ⟨_, hchild, rfl⟩) _ hj⟩
    exact own.later later
  · rw [h.waitOf?_of_ne hk] at hw'
    exact (ha k w' hw').later later

theorem Wakes.awaitsOwn (h : c.Wakes id w c') (ha : c.toSession.AwaitsOwn) :
    c'.toSession.AwaitsOwn := by
  intro k w' hw'
  by_cases hk : k = id
  · subst hk
    rw [h.waitOf?_self.2] at hw'
    cases hw'
  · rw [h.waitOf?_of_ne hk] at hw'
    exact (ha k w' hw').later h.later

end Cascade

theorem Path.passes_awaitsOwn {c c' : Cascade} {ms : List Moment}
    (h : Path Cascade.Passes c ms c') (hs : c.toSession.Sound) (ha : c.toSession.AwaitsOwn) :
    c'.toSession.AwaitsOwn :=
  h.induct_of_sound hs ha (fun _ _ h => h.sound) (fun _ _ h _ => h.awaitsOwn)
    (fun _ _ _ _ h => h.awaitsOwn) fun _ _ _ _ h _ => h.awaitsOwn

theorem Path.passes_orderly {c c' : Cascade} {ms : List Moment}
    (h : Path Cascade.Passes c ms c') (ho : c.toSession.Orderly) : c'.toSession.Orderly where
  sound := h.passes_sound ho.sound
  linked := h.passes_linked ho.sound ho.linked
  kinship := h.passes_kinship ho.sound ho.kinship
  awaitsOwn := h.passes_awaitsOwn ho.sound ho.awaitsOwn

theorem Path.orderly {c c' : Cascade} {ms : List Moment} (h : Path Cascade.Change c ms c')
    (ho : c.toSession.Orderly) : c'.toSession.Orderly :=
  (h.mono fun _ _ => .change).passes_orderly ho

theorem Session.orderly_new (name : String) (library : FlowLibrary) (limits : Limits)
    (context : Params) : (new name library limits context).Orderly :=
  ⟨sound_new name library limits context, linked_new name library limits context,
    kinship_new name library limits context, fun _ _ hw => by cases hw⟩

/-! ## Claims -/

/-- A claim succeeds: none is more specific, and if some of those that are as specific are
exclusive, it is the oldest one of these. -/
structure Claim.Wins (claims : List Claim) (w : Claim) : Prop where
  mem : w ∈ claims
  specific : ∀ v ∈ claims, v.specificity ≤ w.specificity
  exclusive : ∀ v ∈ claims, v.specificity = w.specificity → v.isExclusive = true →
    w.isExclusive = true ∧ w.id.number ≤ v.id.number

theorem le_bestSpecificity {claims : List Claim} {v : Claim} (h : v ∈ claims) :
    v.specificity ≤ bestSpecificity claims := by
  induction claims with
  | nil => cases h
  | cons u rest ih =>
    rcases List.mem_cons.1 h with rfl | h
    · exact Nat.le_max_left _ _
    · exact Nat.le_trans (ih h) (Nat.le_max_right _ _)

theorem exists_bestSpecificity : ∀ {claims : List Claim}, claims ≠ [] →
    ∃ v ∈ claims, v.specificity = bestSpecificity claims
  | [], h => absurd rfl h
  | [u], _ => ⟨u, List.mem_cons_self, (Nat.max_zero _).symm⟩
  | u :: t :: rest, _ => by
    obtain ⟨v, hv, best⟩ := exists_bestSpecificity (List.cons_ne_nil t rest)
    -- The first claim is the best one, or the best one of the others is.
    rcases Nat.le_total (bestSpecificity (t :: rest)) u.specificity with hle | hle
    · exact ⟨u, List.mem_cons_self, (Nat.max_eq_left hle).symm⟩
    · exact ⟨v, List.mem_cons_of_mem _ hv, best.trans (Nat.max_eq_right hle).symm⟩

theorem winners_ne_nil {claims : List Claim} (h : claims ≠ []) : winners claims ≠ [] := by
  obtain ⟨v, hv, best⟩ := exists_bestSpecificity h
  unfold winners
  dsimp only
  split
  · exact List.cons_ne_nil _ _
  · exact List.ne_nil_of_mem (List.mem_filter.2 ⟨hv, by simpa using best⟩)

/-- The claims that are as specific as the best one are those that no other one surpasses. -/
theorem mem_filter_bestSpecificity {claims : List Claim} {v : Claim} :
    v ∈ claims.filter (fun c => c.specificity == bestSpecificity claims) ↔
      v ∈ claims ∧ ∀ u ∈ claims, u.specificity ≤ v.specificity := by
  simp only [List.mem_filter, beq_iff_eq]
  refine and_congr_right fun hv => ⟨fun best u hu => best ▸ le_bestSpecificity hu, fun h => ?_⟩
  obtain ⟨u, hu, best⟩ := exists_bestSpecificity (List.ne_nil_of_mem hv)
  exact Nat.le_antisymm (le_bestSpecificity hv) (best ▸ h u hu)

/-- The first exclusive claim of a list is the oldest one. -/
theorem oldest_of_find? {claims : List Claim} {x v : Claim}
    (sorted : claims.Pairwise fun a b => a.id.number < b.id.number)
    (hx : claims.find? (·.isExclusive) = some x) (hv : v ∈ claims) (exv : v.isExclusive = true) :
    v = x ∨ x.id.number < v.id.number := by
  obtain ⟨-, pre, post, rfl, plain⟩ := List.find?_eq_some_iff_append.1 hx
  rcases List.mem_append.1 hv with hv | hv
  · have := plain v hv
    simp [exv] at this
  · rcases List.mem_cons.1 hv with rfl | hv
    · exact .inl rfl
    · exact .inr ((List.pairwise_cons.1 (List.pairwise_append.1 sorted).2.1).1 v hv)

/-- The claims that succeed are those that win. -/
theorem mem_winners_iff {claims : List Claim} {w : Claim}
    (sorted : claims.Pairwise fun a b => a.id.number < b.id.number) :
    w ∈ winners claims ↔ w.Wins claims := by
  unfold winners
  dsimp only
  split
  · next x hx =>
    have exclusive : x.isExclusive = true := by simpa using List.find?_some hx
    obtain ⟨hxc, hxs⟩ := mem_filter_bestSpecificity.1 (List.mem_of_find?_eq_some hx)
    -- An exclusive claim of the best specificity wins alone, and the oldest of them is found first.
    have oldest : ∀ v ∈ claims, v.specificity = x.specificity → v.isExclusive = true →
        v = x ∨ x.id.number < v.id.number := fun v hv hvx =>
      oldest_of_find? (sorted.filter _) hx
        (mem_filter_bestSpecificity.2 ⟨hv, fun u hu => hvx ▸ hxs u hu⟩)
    rw [List.mem_singleton]
    constructor
    · rintro rfl
      refine ⟨hxc, hxs, fun v hv hvx exv => ⟨exclusive, ?_⟩⟩
      rcases oldest v hv hvx exv with rfl | younger
      · exact Nat.le_refl _
      · exact Nat.le_of_lt younger
    · intro h
      have same : w.specificity = x.specificity :=
        Nat.le_antisymm (hxs w h.mem) (h.specific x hxc)
      obtain ⟨exw, older⟩ := h.exclusive x hxc same.symm exclusive
      exact (oldest w h.mem same exw).resolve_right fun younger => by omega
  · next hnone =>
    -- Otherwise all claims of the best specificity win.
    have plain : ∀ v ∈ claims, (∀ u ∈ claims, u.specificity ≤ v.specificity) →
        v.isExclusive = false := fun v hv hvs => by
      simpa using List.find?_eq_none.1 hnone v (mem_filter_bestSpecificity.2 ⟨hv, hvs⟩)
    rw [mem_filter_bestSpecificity]
    constructor
    · rintro ⟨hw, hws⟩
      refine ⟨hw, hws, fun v hv hvw exv => ?_⟩
      rw [plain v hv fun u hu => hvw ▸ hws u hu] at exv
      cases exv
    · exact fun h => ⟨h.mem, h.specific⟩

theorem Instance.candidate?_claim_id {i : Instance} {e : Event} {scope : Scope} {claim : Claim}
    (h : i.candidate? e scope = .ok (some (.claim claim))) : claim.id = i.id := by
  obtain ⟨w, s, -, -, ⟨-, late⟩ | ⟨n, arm, a, -, -, asked⟩⟩ := exists_of_candidate? h nofun
  · cases late
  · exact (Arm.armed_of_claim asked).2.2

/-- Only a suspended instance makes anything of an event. -/
theorem Instance.isWaiting_of_candidate? {i : Instance} {e : Event} {scope : Scope}
    (h : i.candidate? e scope ≠ .ok none) : i.isWaiting = true := by
  obtain ⟨w, s, hw, -⟩ := exists_of_candidate? rfl h
  simp [isWaiting, hw]

namespace Cascade

variable {c c' : Cascade} {e : Event} {id : InstanceId} {i : Instance}

/-! ## Who takes an event -/

/-- An event is addressed to a suspended instance. -/
def IsAddressed (c : Cascade) (e : Event) (id : InstanceId) : Prop :=
  ∃ i r, c.instances.get? id = some i ∧ i.candidate? e (c.scope i) = .ok (some (.addressed r))

/-- A suspended instance competes for an event and succeeds. -/
def Wins (c : Cascade) (e : Event) (id : InstanceId) : Prop :=
  ∃ w : Claim, w.Wins (c.claims e) ∧ w.id = id

/-- A suspended instance cannot evaluate one of its patterns for an event. -/
def IsBroken (c : Cascade) (e : Event) (id : InstanceId) : Prop :=
  ∃ i err, c.instances.get? id = some i ∧ i.candidate? e (c.scope i) = .error err

theorem mem_candidates_iff (hs : c.toSession.Sound) {r : Except FlowError (Option Candidate)} :
    (id, r) ∈ c.candidates e ↔ ∃ i, c.instances.get? id = some i ∧ i.isWaiting = true ∧
      i.candidate? e (c.scope i) = r := by
  simp only [candidates, List.mem_map, List.mem_filter, Table.mem_values]
  constructor
  · rintro ⟨i, ⟨⟨k, hi⟩, waiting⟩, heq⟩
    obtain ⟨rfl, rfl⟩ := Prod.mk.inj heq
    obtain rfl := hs.id_eq hi
    exact ⟨i, hi, waiting, rfl⟩
  · rintro ⟨i, hi, waiting, rfl⟩
    exact ⟨i, ⟨⟨id, hi⟩, waiting⟩, by rw [hs.id_eq hi]⟩

/-- The instances are asked in the order in which they have begun. -/
theorem pairwise_candidates (hs : c.toSession.Sound) (e : Event) :
    (c.candidates e).Pairwise fun a b => a.1.number < b.1.number := by
  have values : c.instances.values.Pairwise fun i j => i.id.number < j.id.number := by
    refine List.pairwise_map.2 (c.instances.sorted.imp_of_mem fun {a b} ha hb hlt => ?_)
    rw [hs.id_eq (Table.mem_entries.1 ha), hs.id_eq (Table.mem_entries.1 hb)]
    exact Nat.compare_eq_lt.1 hlt
  exact List.pairwise_map.2 (values.filter _)

/-- So is what is made of them, as long as it is made for the instances that are asked. -/
theorem pairwise_filterMap_candidates {α : Type}
    {f : InstanceId × Except FlowError (Option Candidate) → Option α} (hs : c.toSession.Sound)
    (e : Event) (key : α → InstanceId)
    (own : ∀ a ∈ c.candidates e, ∀ v, f a = some v → key v = a.1) :
    ((c.candidates e).filterMap f).Pairwise fun v w => (key v).number < (key w).number := by
  refine List.pairwise_filterMap.2
    ((pairwise_candidates hs e).imp_of_mem fun {a b} ha hb hlt v hv w hw => ?_)
  rwa [own a ha v hv, own b hb w hw]

theorem mem_broken_iff (hs : c.toSession.Sound) {err : FlowError} :
    (id, err) ∈ c.broken e ↔
      ∃ i, c.instances.get? id = some i ∧ i.candidate? e (c.scope i) = .error err := by
  simp only [broken, List.mem_filterMap]
  constructor
  · rintro ⟨⟨k, r⟩, hr, heq⟩
    split at heq
    · next hk =>
      obtain ⟨rfl, rfl⟩ := Prod.mk.inj hk
      obtain ⟨rfl, rfl⟩ := Prod.mk.inj (Option.some.inj heq)
      obtain ⟨i, hi, -, hc⟩ := (mem_candidates_iff hs).1 hr
      exact ⟨i, hi, hc⟩
    · cases heq
  · rintro ⟨i, hi, hc⟩
    have waiting := Instance.isWaiting_of_candidate? (by rw [hc]; exact nofun)
    exact ⟨(id, .error err), (mem_candidates_iff hs).2 ⟨i, hi, waiting, hc⟩, rfl⟩

/-- A claim is made for the instance that is asked. -/
theorem claim_id_of_mem (hs : c.toSession.Sound) {claim : Claim}
    (h : (id, .ok (some (.claim claim))) ∈ c.candidates e) : claim.id = id := by
  obtain ⟨i, hi, -, hc⟩ := (mem_candidates_iff hs).1 h
  exact (Instance.candidate?_claim_id hc).trans (hs.id_eq hi)

theorem mem_claims_iff (hs : c.toSession.Sound) {w : Claim} :
    w ∈ c.claims e ↔ (w.id, .ok (some (.claim w))) ∈ c.candidates e := by
  simp only [claims, List.mem_filterMap]
  constructor
  · rintro ⟨⟨k, r⟩, hr, heq⟩
    split at heq
    · next hk =>
      obtain ⟨rfl, rfl⟩ := Prod.mk.inj hk
      obtain rfl := Option.some.inj heq
      rwa [claim_id_of_mem hs hr]
    · cases heq
  · exact fun h => ⟨_, h, rfl⟩

theorem pairwise_claims (hs : c.toSession.Sound) (e : Event) :
    (c.claims e).Pairwise fun a b => a.id.number < b.id.number := by
  refine pairwise_filterMap_candidates hs e Claim.id fun a ha v hv => ?_
  split at hv
  · obtain rfl := Option.some.inj hv
    exact claim_id_of_mem hs ha
  · cases hv

theorem wins_of_mem_winners (hs : c.toSession.Sound) {w : Claim} (h : w ∈ winners (c.claims e)) :
    w.Wins (c.claims e) :=
  (mem_winners_iff (pairwise_claims hs e)).1 h

/-- An instance makes one thing of an event. -/
theorem candidate_unique (hs : c.toSession.Sound) {r r' : Except FlowError (Option Candidate)}
    (h : (id, r) ∈ c.candidates e) (h' : (id, r') ∈ c.candidates e) : r = r' := by
  obtain ⟨i, hi, -, rfl⟩ := (mem_candidates_iff hs).1 h
  obtain ⟨i', hi', -, rfl⟩ := (mem_candidates_iff hs).1 h'
  obtain rfl := Option.some.inj (hi.symm.trans hi')
  rfl

/-- An event is taken by those to which it is addressed, and by those whose claims succeed. -/
theorem mem_consumers_iff (hs : c.toSession.Sound) {r : Resolution} :
    (id, r) ∈ c.consumers e ↔ (id, .ok (some (.addressed r))) ∈ c.candidates e ∨
      ∃ w ∈ winners (c.claims e), w.id = id ∧ r = .arm w.index w.arm w.bindings := by
  simp only [consumers, List.mem_filterMap]
  constructor
  · rintro ⟨⟨k, o⟩, ho, heq⟩
    split at heq
    · next hk =>
      obtain ⟨rfl, rfl⟩ := Prod.mk.inj hk
      obtain ⟨rfl, rfl⟩ := Prod.mk.inj (Option.some.inj heq)
      exact .inl ho
    · next own claim hk =>
      obtain ⟨rfl, rfl⟩ := Prod.mk.inj hk
      split at heq
      · next wins =>
        obtain ⟨rfl, rfl⟩ := Prod.mk.inj (Option.some.inj heq)
        obtain ⟨w, hw, hid⟩ := List.any_eq_true.1 wins
        have hid : w.id = k := by simpa using hid
        -- An instance makes one claim at most, so it is this one that succeeds.
        have made := (mem_claims_iff hs).1 (wins_of_mem_winners hs hw).mem
        have same := candidate_unique hs ho (hid ▸ made)
        obtain rfl := Candidate.claim.inj (Option.some.inj (Except.ok.inj same))
        exact .inr ⟨claim, hw, hid, rfl⟩
      · cases heq
    · cases heq
  · rintro (h | ⟨w, hw, rfl, rfl⟩)
    · exact ⟨_, h, rfl⟩
    · have made := (mem_claims_iff hs).1 (wins_of_mem_winners hs hw).mem
      refine ⟨_, made, ?_⟩
      have wins : (winners (c.claims e)).any fun v => v.id = w.id :=
        List.any_eq_true.2 ⟨w, hw, by simp⟩
      simp only [wins, if_true]

/-- Those who take an event go on in the order in which they have begun. -/
theorem pairwise_consumers (hs : c.toSession.Sound) (e : Event) :
    (c.consumers e).Pairwise fun a b => a.1.number < b.1.number := by
  refine pairwise_filterMap_candidates hs e Prod.fst fun a _ v hv => ?_
  split at hv
  · exact Option.some.inj hv ▸ rfl
  · split at hv
    · exact Option.some.inj hv ▸ rfl
    · cases hv
  · cases hv

/-- Who takes an event is suspended when it is delivered. -/
theorem waits_of_mem_consumers (hs : c.toSession.Sound) {r : Resolution}
    (h : (id, r) ∈ c.consumers e) : ∃ w, c.toSession.waitOf? id = some w := by
  have asked : ∃ o, (id, o) ∈ c.candidates e := by
    rcases (mem_consumers_iff hs).1 h with h | ⟨w, hw, rfl, -⟩
    · exact ⟨_, h⟩
    · exact ⟨_, (mem_claims_iff hs).1 (wins_of_mem_winners hs hw).mem⟩
  obtain ⟨o, ho⟩ := asked
  obtain ⟨i, hi, waiting, -⟩ := (mem_candidates_iff hs).1 ho
  obtain ⟨w, hw⟩ := Option.isSome_iff_exists.1 waiting
  exact ⟨w, Option.bind_eq_some_iff.2 ⟨i, hi, hw⟩⟩

end Cascade

/-! ## Deliveries in a history -/

namespace Moment

/-- The event that is delivered. -/
def delivery? : Moment → Option Event
  | .delivered e _ => some e
  | _ => none

/-- An event is delivered, and the state at that time is as asked. -/
def delivers (p : Event → Cascade → Bool) : Moment → Bool
  | .delivered e c => p e c
  | _ => false

theorem delivered_of_delivers {p : Event → Cascade → Bool} {m : Moment} (h : m.delivers p = true) :
    ∃ e c, m = .delivered e c ∧ p e c = true := by
  cases m with
  | suspended => cases h
  | woken => cases h
  | delivered e c => exact ⟨e, c, rfl, h⟩

/-- The instance that is woken. -/
def waking? : Moment → Option InstanceId
  | .woken id _ _ _ _ _ => some id
  | _ => none

/-- The events that are delivered, in order. -/
def deliveries (ms : List Moment) : List Event := ms.filterMap delivery?

/-- The instances that are woken, in order. -/
def wakings (ms : List Moment) : List InstanceId := ms.filterMap waking?

/-- Nothing happens but that instances are suspended. -/
def OnlySuspends (ms : List Moment) : Prop := ∀ m ∈ ms, m.delivery? = none ∧ m.waking? = none

theorem OnlySuspends.nil : OnlySuspends [] := fun _ hm => absurd hm List.not_mem_nil

theorem OnlySuspends.append {ms ms' : List Moment} (h : OnlySuspends ms) (h' : OnlySuspends ms') :
    OnlySuspends (ms ++ ms') := fun m hm => (List.mem_append.1 hm).elim (h m) (h' m)

theorem OnlySuspends.deliveries {ms : List Moment} (h : OnlySuspends ms) : deliveries ms = [] :=
  List.filterMap_eq_nil_iff.2 fun m hm => (h m hm).1

theorem OnlySuspends.wakings {ms : List Moment} (h : OnlySuspends ms) : wakings ms = [] :=
  List.filterMap_eq_nil_iff.2 fun m hm => (h m hm).2

theorem deliveries_append (ms ms' : List Moment) :
    deliveries (ms ++ ms') = deliveries ms ++ deliveries ms' := List.filterMap_append

theorem wakings_append (ms ms' : List Moment) : wakings (ms ++ ms') = wakings ms ++ wakings ms' :=
  List.filterMap_append

end Moment

namespace Cascade

open Moment (OnlySuspends deliveries wakings)

variable {c c' : Cascade} {id : InstanceId} {ms : List Moment}

theorem onlySuspends_stepHistory (c : Cascade) (i : Instance) :
    OnlySuspends (c.stepHistory i) := by
  intro m hm
  unfold stepHistory at hm
  split at hm
  · obtain rfl := List.mem_singleton.1 hm
    exact ⟨rfl, rfl⟩
  · cases hm

theorem onlySuspends_stackHistory (root : InstanceId) : ∀ (budget : Nat)
    (stack : List InstanceId) (c : Cascade), OnlySuspends (stackHistory root budget stack c)
  | budget, stack, c => by
    unfold stackHistory
    split
    · exact .nil
    · next i rest _ =>
      cases budget with
      | zero => exact .nil
      | succ budget =>
        exact (onlySuspends_stepHistory c i).append (onlySuspends_stackHistory root budget _ _)

theorem onlySuspends_launchHistory (c : Cascade) (flow : String) (args : Params) :
    OnlySuspends (c.launchHistory flow args) := by
  unfold launchHistory
  split
  · exact .nil
  · exact onlySuspends_stackHistory _ _ _ _

theorem onlySuspends_launchAllHistory : ∀ (flows : List String) (c : Cascade),
    OnlySuspends (launchAllHistory flows c)
  | [], _ => .nil
  | flow :: rest, c => by
    refine (onlySuspends_launchHistory c flow ∅).append ?_
    split
    · exact .nil
    · exact onlySuspends_launchAllHistory rest _

/-- When a wait is resolved, its instance is woken or nobody is, and nothing is delivered. -/
theorem Resumes.moments {r : Resolution} (h : Resumes c id r c' ms) :
    deliveries ms = [] ∧ (wakings ms).Sublist [id] := by
  cases h with
  | stays => exact ⟨rfl, List.nil_sublist _⟩
  | ends => exact ⟨rfl, List.nil_sublist _⟩
  | @advances i w r pc bindings =>
    have quiet : OnlySuspends ((c.disarm i r.kept?).advanceHistory id pc bindings) :=
      onlySuspends_stackHistory _ _ _ _
    refine ⟨quiet.deliveries, List.Sublist.cons_cons id ?_⟩
    exact List.sublist_nil.2 quiet.wakings
  | fails => exact ⟨rfl, List.Sublist.refl _⟩

theorem moments_foldl_resume (rs : List (InstanceId × Resolution)) (c : Cascade) :
    let ms := foldHistory (fun c r => c.resume r.1 r.2) (fun c r => c.resumeHistory r.1 r.2) c rs
    deliveries ms = [] ∧ (wakings ms).Sublist (rs.map Prod.fst) := by
  induction rs generalizing c with
  | nil => exact ⟨rfl, List.nil_sublist _⟩
  | cons r rest ih =>
    obtain ⟨delivered, woken⟩ := (resumes c r.1 r.2).moments
    obtain ⟨moreDelivered, moreWoken⟩ := ih (c.resume r.1 r.2)
    refine ⟨?_, ?_⟩
    · rw [foldHistory, Moment.deliveries_append, delivered, moreDelivered]
      rfl
    · rw [foldHistory, Moment.wakings_append]
      exact woken.append moreWoken

/-- After an event has been delivered, some of those who take it are woken, in their order. -/
theorem deliverHistory_eq (c : Cascade) (e : Event) : ∃ ms,
    c.deliverHistory e = .delivered e c :: ms ∧ deliveries ms = [] ∧
      (wakings ms).Sublist ((c.consumers e).map Prod.fst) :=
  ⟨_, rfl, moments_foldl_resume (c.consumers e) (c.purge e)⟩

/-- A cascade when an event is delivered: it is in order, nothing runs, and nothing is left to be
settled. -/
structure Ready (c : Cascade) : Prop where
  orderly : c.toSession.Orderly
  calm : Calm [] c
  produced : c.produced = #[]

theorem ready_settle (orderly : c.toSession.Orderly) (calm : Calm [] c) : c.settle.Ready where
  orderly := (Path.single (.aside (aside_settle c))).passes_orderly orderly
  calm := (aside_settle c).calm calm
  produced := (keeps_settle c).2

theorem Ready.deliver (h : c.Ready) (e : Event) : (c.deliver e).settle.Ready :=
  ready_settle ((path_deliver h.orderly.sound e).orderly h.orderly)
    (calm_deliver h.orderly.sound h.orderly.linked h.calm e)

theorem Ready.pop (h : c.Ready) (rest : List Event) : ({ c with queue := rest } : Cascade).Ready :=
  ⟨h.orderly, h.calm, h.produced⟩

/-- What is told until the queue is empty are deliveries, one after the other. -/
theorem drainHistory_eq : ∀ (budget : Nat) {c : Cascade}, c.Ready →
    ∃ ds : List (Event × Cascade), drainHistory budget c =
      ds.flatMap (fun d => d.2.deliverHistory d.1) ∧ ∀ d ∈ ds, d.2.Ready
  | budget, c, h => by
    unfold drainHistory
    cases c.queue with
    | nil => exact ⟨[], rfl, fun _ hd => absurd hd List.not_mem_nil⟩
    | cons e rest =>
      cases budget with
      | zero => exact ⟨[], rfl, fun _ hd => absurd hd List.not_mem_nil⟩
      | succ budget =>
        obtain ⟨ds, heq, ready⟩ := drainHistory_eq budget ((h.pop rest).deliver e)
        refine ⟨(e, { c with queue := rest }) :: ds, ?_, List.forall_mem_cons.2 ⟨h.pop rest, ready⟩⟩
        rw [List.flatMap_cons, ← heq]

end Cascade

namespace Session

open Moment (OnlySuspends)

variable {s : Session}

theorem onlySuspends_turn? {o : Operation} {ms : List Moment} {c : Cascade}
    (h : s.turn? o = some (ms, c)) : OnlySuspends ms := by
  cases begins_of_turn? h with
  | start => exact Cascade.onlySuspends_launchAllHistory _ _
  | startFlow => exact Cascade.onlySuspends_launchHistory _ _ _
  | _ => exact .nil

/-- Between two operations everything is ready for a delivery. -/
theorem ready_apply (h : s.openCascade.Ready) (o : Operation) : (s.apply o).openCascade.Ready where
  orderly := (path_history h.orderly.sound o).passes_orderly h.orderly
  calm := (rests_apply ⟨h.orderly.sound, h.orderly.linked, h.calm⟩ o).calm
  produced := rfl

theorem ready_applyAll (h : s.openCascade.Ready) (os : List Operation) :
    (s.applyAll os).openCascade.Ready := by
  induction os generalizing s with
  | nil => exact h
  | cons o rest ih => exact ih (ready_apply h o)

theorem ready_new (name : String) (library : FlowLibrary) (limits : Limits) (context : Params) :
    (new name library limits context).openCascade.Ready :=
  ⟨orderly_new name library limits context, (rests_new name library limits context).calm, rfl⟩

theorem ready_turn? (h : s.openCascade.Ready) {o : Operation} {ms : List Moment} {c : Cascade}
    (ht : s.turn? o = some (ms, c)) : c.settle.Ready :=
  Cascade.ready_settle ((path_turn? h.orderly.sound ht).passes_orderly h.orderly)
    (calm_turn? ⟨h.orderly.sound, h.orderly.linked, h.calm⟩ ht)

/-- The history of an operation is that of its deliveries, and what runs before them. -/
theorem history_eq_deliveries (h : s.openCascade.Ready) (o : Operation) :
    ∃ (ms : List Moment) (ds : List (Event × Cascade)), OnlySuspends ms ∧
      s.history o = ms ++ ds.flatMap (fun d => d.2.deliverHistory d.1) ∧ ∀ d ∈ ds, d.2.Ready := by
  unfold history
  cases ht : s.turn? o with
  | none => exact ⟨[], [], .nil, rfl, fun _ hd => absurd hd List.not_mem_nil⟩
  | some t =>
    obtain ⟨ms, c⟩ := t
    obtain ⟨ds, heq, ready⟩ := Cascade.drainHistory_eq c.limits.cascadeSteps (ready_turn? h ht)
    exact ⟨ms, ds, onlySuspends_turn? ht, congrArg (ms ++ ·) heq, ready⟩

/-- What a history tells is a suspension, or it comes of a delivery for which everything is
ready. -/
theorem delivery_of_mem_historyOf (h : s.openCascade.Ready) {os : List Operation} {m : Moment}
    (hm : m ∈ s.historyOf os) : OnlySuspends [m] ∨
      ∃ e d, .delivered e d ∈ s.historyOf os ∧ d.Ready ∧ m ∈ d.deliverHistory e := by
  induction os generalizing s with
  | nil => cases hm
  | cons o rest ih =>
    rcases List.mem_append.1 hm with hm | hm
    · obtain ⟨ms, ds, quiet, heq, ready⟩ := history_eq_deliveries h o
      rw [heq] at hm
      rcases List.mem_append.1 hm with hm | hm
      · refine .inl fun m' hm' => ?_
        obtain rfl := List.mem_singleton.1 hm'
        exact quiet _ hm
      · obtain ⟨⟨e, d⟩, hd, hm⟩ := List.mem_flatMap.1 hm
        refine .inr ⟨e, d, List.mem_append_left _ ?_, ready _ hd, hm⟩
        rw [heq]
        exact List.mem_append_right _ (List.mem_flatMap.2 ⟨_, hd, List.mem_cons_self⟩)
    · rcases ih (ready_apply h o) hm with quiet | ⟨e, d, delivered, ready, hm⟩
      · exact .inl quiet
      · exact .inr ⟨e, d, List.mem_append_right _ delivered, ready, hm⟩

/-- Whenever an event is delivered, everything is ready for it. -/
theorem ready_of_delivered (h : s.openCascade.Ready) {os : List Operation} {e : Event}
    {c : Cascade} (hm : .delivered e c ∈ s.historyOf os) : c.Ready := by
  rcases delivery_of_mem_historyOf h hm with quiet | ⟨e', d, -, ready, hm⟩
  · cases (quiet _ (List.mem_singleton_self _)).1
  -- A delivery tells of no other.
  · obtain ⟨more, heq, none, -⟩ := d.deliverHistory_eq e'
    rw [heq] at hm
    rcases List.mem_cons.1 hm with heq | hm
    · obtain ⟨-, rfl⟩ := Moment.delivered.inj heq
      exact ready
    · have found : e ∈ Moment.deliveries more := List.mem_filterMap.2 ⟨_, hm, rfl⟩
      rw [none] at found
      cases found

/-- A delivery that is found by running flows is one of their history. -/
theorem exists_delivered {flows : List FlowDefinition} {os : List Operation}
    {p : Event → Cascade → Bool}
    (run : (FlowLibrary.ofDefinitions Vocabulary.standard flows).toOption.any
      (fun library => ((new "session" library .standard ∅).historyOf os).any (Moment.delivers p)) =
        true) :
    ∃ library, FlowLibrary.ofDefinitions Vocabulary.standard flows = .ok library ∧
      ∃ e c, .delivered e c ∈ (new "session" library .standard ∅).historyOf os ∧ p e c = true := by
  obtain ⟨library, loaded, run⟩ := exists_of_toOption_any run
  obtain ⟨m, hm, found⟩ := List.any_eq_true.1 run
  obtain ⟨e, c, rfl, holds⟩ := Moment.delivered_of_delivers found
  exact ⟨library, loaded, e, c, hm, holds⟩

end Session

end Dialogue
