import Dialogue.Proofs.Calls.Life
import Dialogue.Proofs.Session.Act
import Dialogue.Proofs.Session.Clock
import Dialogue.Proofs.Session.Ownership
import Dialogue.Proofs.Session.Subtree

/-!
# What goes down with an instance

An instance that is ended early takes down whatever hangs on it by children that may not outlive
their parents, and nothing else. They end one after the other in preorder. None of them is touched
by the end of those before it: whoever ends strikes itself off the list of its parent, which has
ended before or goes on, and is forgotten by children that may outlive it, which do not go down with
it. So each of them ends as it was, with its timer and its calls.

Whoever goes on is what it was, but for two links: the parent of the instance does not list it any
more, and whoever may outlive a parent that has gone down has no parent any more.

## Main definitions

* `Session.Coherent` — what holds in a state that a session can come to
* `Session.Reaches` — the states that a session comes to, in the course of a turn and between turns
* `Cascade.Felled` — instances are ended early, one after the other
* `Instance.outliving` — an instance after another one has ended, and what was attached to that
* `Cascade.TakesDown` — an instance is ended early, and all that is attached to it

## Main results

* `Cascade.Felled.get?_instances`, `Cascade.Felled.eq` — what is left when instances have ended
* `Cascade.exists_takesDown` — ending an instance early takes down what is attached to it
* `Session.attached_go_down` — that is so whenever a session ends an instance early
-/

namespace Dialogue

open Relation (ReflTransGen)

/-! ## States that a session comes to -/

/-- What holds of instances, timers and calls at any time. -/
structure Session.Coherent (s : Session) : Prop extends s.Orderly where
  timed : s.Timed
  byAge : s.ByAge

/-- A live instance lists those that have begun as its children and may not outlive it. -/
theorem Session.Coherent.mem_children_iff {s : Session} {p k : InstanceId} {j : Instance}
    (h : s.Coherent) (hj : s.instances.get? p = some j) : k ∈ j.children ↔
      ∃ i, s.instances.get? k = some i ∧ i.parent = some p ∧ i.isDetached = false := by
  refine ⟨h.kinship.listed p j k hj, fun ⟨i, hi, parent, stays⟩ => ?_⟩
  obtain ⟨j', hj', listed⟩ := h.linked k i p hi parent stays
  obtain rfl := Option.some.inj (hj.symm.trans hj')
  exact listed

namespace Cascade

variable {c c' : Cascade}

/-- A step of a session, in the course of a turn or between turns. -/
inductive Moves (c c' : Cascade) : Prop
  /-- Something passes. -/
  | passes (h : c.Passes c')
  /-- An instance is suspended. -/
  | suspends {id w} (h : c.Suspends id w c')
  /-- An instance is woken. -/
  | wakes {id w} (h : c.Wakes id w c')

theorem Moves.coherent (h : c.Moves c') (hc : c.toSession.Coherent) : c'.toSession.Coherent := by
  obtain ⟨⟨sound, linked, kinship, own⟩, timed, byAge⟩ := hc
  cases h with
  | passes h =>
    exact ⟨⟨h.sound sound, h.linked sound linked, h.kinship sound kinship, h.awaitsOwn own⟩,
      h.timed sound timed, h.byAge sound kinship byAge⟩
  | suspends h =>
    exact ⟨⟨h.sound sound, h.linked linked, h.kinship kinship, h.awaitsOwn sound own⟩,
      h.timed sound timed, h.byAge byAge⟩
  | wakes h =>
    exact ⟨⟨h.sound sound, h.linked linked, h.kinship kinship, h.awaitsOwn own⟩, h.timed timed,
      h.byAge byAge⟩

theorem Moves.later (h : c.Moves c') : c.toSession.Later c'.toSession := by
  cases h with
  | passes h => exact h.later
  | suspends h => exact h.later
  | wakes h => exact h.later

theorem later_of_moves (h : ReflTransGen Moves c c') : c.toSession.Later c'.toSession := by
  induction h with
  | refl => exact .refl _
  | tail _ last ih => exact ih.trans last.later

theorem moves_of_changes (h : Changes c c') : ReflTransGen Moves c c' :=
  ReflTransGen.mono (fun _ _ h => .passes (.change h)) _ _ h

end Cascade

theorem Path.moves {c c' : Cascade} {ms : List Moment} (h : Path Cascade.Passes c ms c') :
    ReflTransGen Cascade.Moves c c' :=
  h.induct (P := ReflTransGen Cascade.Moves c) .refl (fun _ _ h way => way.tail (.passes h))
    (fun _ _ _ _ h way => way.tail (.suspends h)) fun _ _ _ _ h way => way.tail (.wakes h)

theorem Cascade.coherent_of_moves {c c' : Cascade} (h : ReflTransGen Cascade.Moves c c')
    (hc : c.toSession.Coherent) : c'.toSession.Coherent := by
  induction h with
  | refl => exact hc
  | tail _ last ih => exact last.coherent ih

/-- A session comes to a state, in the course of a turn or between turns. -/
def Session.Reaches (s : Session) (c : Cascade) : Prop :=
  ReflTransGen Cascade.Moves s.openCascade c

namespace Cascade

/-! ## Instances that end one after the other -/

/-- Instances are ended early, one after the other. They are listed as they are when they end. -/
inductive Felled (error : InstanceId → FlowError) : Cascade → List Instance → Cascade → Prop
  | nil (c) : Felled error c [] c
  | cons {c c' i rest} (live : c.instances.get? i.id = some i)
    (more : Felled error (c.abort i.id (error i.id)) rest c') : Felled error c (i :: rest) c'

variable {c c' : Cascade} {id k : InstanceId} {i j : Instance} {js : List Instance}
  {error : InstanceId → FlowError}

/-- The end of the first of two instances leaves the second one as it is. -/
def Misses (c : Cascade) (a b : InstanceId) : Prop :=
  ∀ i j, c.instances.get? a = some i → c.instances.get? b = some j →
    a ≠ b ∧ i.parent ≠ some b ∧ (j.isDetached = true → j.parent ≠ some a)

theorem get?_abort (hi : c.instances.get? i.id = some i) (error : FlowError) (k : InstanceId) :
    (c.abort i.id error).instances.get? k =
      if k = i.id then none else (c.instances.get? k).map (Instance.unlinked i k) := by
  rw [abort_eq hi]
  exact get?_unlinked k

theorem Misses.get?_abort {b : InstanceId} (h : c.Misses i.id b)
    (hi : c.instances.get? i.id = some i) (error : FlowError) :
    (c.abort i.id error).instances.get? b = c.instances.get? b := by
  rw [Cascade.get?_abort hi]
  cases hb : c.instances.get? b with
  | none => split <;> rfl
  | some j =>
    obtain ⟨other, notParent, notChild⟩ := h i j hi hb
    have same : Instance.unlinked i b j = j := by
      unfold Instance.unlinked
      rw [if_neg notParent, if_neg fun both => ?_]
      rw [Bool.and_eq_true, decide_eq_true_eq] at both
      exact notChild both.1 both.2
    rw [if_neg (Ne.symm other), Option.map_some, same]

/-- Instances of which none is touched by the end of those before it end as they have been. -/
theorem exists_felled (hs : c.toSession.Sound) (error : InstanceId → FlowError)
    (ids : List InstanceId) (live : ∀ k ∈ ids, (c.instances.get? k).isSome)
    (apart : ids.Pairwise c.Misses) : ∃ js, js.map Instance.id = ids ∧
      (∀ j ∈ js, c.instances.get? j.id = some j) ∧
        Felled error c js (ids.foldl (fun c id => c.abort id (error id)) c) := by
  induction ids generalizing c with
  | nil => exact ⟨[], rfl, nofun, .nil c⟩
  | cons k rest ih =>
    obtain ⟨i, hi⟩ := Option.isSome_iff_exists.1 (live k List.mem_cons_self)
    obtain rfl := hs.id_eq hi
    obtain ⟨first, others⟩ := List.pairwise_cons.1 apart
    have same (b : InstanceId) (hb : b ∈ rest) :
        (c.abort i.id (error i.id)).instances.get? b = c.instances.get? b :=
      (first b hb).get?_abort hi _
    obtain ⟨js, rfl, found, felled⟩ := ih ((ends_abort hi rfl (error i.id)).sound hs)
      (fun b hb => same b hb ▸ live b (List.mem_cons_of_mem _ hb))
      (others.imp_of_mem fun {a b} ha hb h i' j' hi' hj' =>
        h i' j' (same a ha ▸ hi') (same b hb ▸ hj'))
    refine ⟨i :: js, rfl, List.forall_mem_cons.2 ⟨hi, fun j hj => ?_⟩, .cons hi felled⟩
    rw [← same j.id (List.mem_map_of_mem hj)]
    exact found j hj

end Cascade

/-! ## What is left -/

namespace Instance

/-- An instance that has been ended early, as it is remembered. -/
def fallen (error : FlowError) (i : Instance) : Instance :=
  { i with phase := .aborted error.message }

/-- How it is noted that an instance has been ended early. -/
def fallNotice (error : FlowError) (i : Instance) : Notice :=
  .flowAborted i.id i.flowName error.message

/-- How it is reported that an instance has been ended early. -/
def fallReport (error : FlowError) (i : Instance) : Produced :=
  ⟨none, Event.of EventName.flowFailed
    [("flow", .string i.flowName), ("instance_id", .ofNat i.id.number),
      ("reason", .string error.message)]⟩

/-- An instance after others have ended, one after the other. -/
def bereft (js : List Instance) (id : InstanceId) (i : Instance) : Instance :=
  js.foldl (fun i j => unlinked j id i) i

/-- The end of instances that are children of others is felt by what may outlive them alone. -/
theorem bereft_eq {js : List Instance} {id : InstanceId} (others : ∀ j ∈ js, j.parent ≠ some id)
    (i : Instance) : bereft js id i = { i with
      parent := if i.isDetached ∧ ∃ j ∈ js, i.parent = some j.id then none else i.parent } := by
  induction js generalizing i with
  | nil => simp [bereft]
  | cons j rest ih =>
    obtain ⟨other, more⟩ := List.forall_mem_cons.1 others
    have step : bereft (j :: rest) id i = bereft rest id (unlinked j id i) := rfl
    rw [step, ih more, unlinked, if_neg other]
    by_cases hd : i.isDetached = true
    · by_cases hp : i.parent = some j.id <;> simp [hd, hp]
    · simp [hd]

/-- An instance after another one has ended, and what was attached to that. It does not list it any
more, and it has forgotten its parent if it has outlived it. -/
def outliving (root : Instance) (ids : List InstanceId) (id : InstanceId) (i : Instance) :
    Instance :=
  { i with
    children := if root.parent = some id then i.children.filter (· ≠ root.id) else i.children
    parent := if i.isDetached ∧ ∃ p ∈ ids, i.parent = some p then none else i.parent }

theorem bereft_eq_outliving {root : Instance} {js : List Instance} {id : InstanceId}
    (others : ∀ j ∈ js, j.parent ≠ some id) (i : Instance) :
    bereft (root :: js) id i = outliving root ((root :: js).map Instance.id) id i := by
  have step : bereft (root :: js) id i = bereft js id (unlinked root id i) := rfl
  rw [step, bereft_eq others, unlinked, outliving]
  by_cases hd : i.isDetached = true
  · by_cases hp : i.parent = some root.id <;> simp [hd, hp]
  · simp [hd]

end Instance

namespace Cascade

variable {c c' : Cascade} {id k : InstanceId} {i j : Instance} {js : List Instance}
  {error : InstanceId → FlowError}

/-- Of the instances those that have ended are gone, and the others are bereft of them. -/
theorem Felled.get?_instances (h : Felled error c js c') (k : InstanceId) :
    c'.instances.get? k = if k ∈ js.map Instance.id then none
      else (c.instances.get? k).map (Instance.bereft js k) := by
  induction h with
  | nil c =>
    have same : Instance.bereft [] k = id := rfl
    simp [same]
  | @cons c c' i rest live _ ih =>
    rw [ih, get?_abort live]
    by_cases hk : k = i.id
    · simp [hk]
    · have step : Instance.bereft rest k ∘ Instance.unlinked i k = Instance.bereft (i :: rest) k :=
        rfl
      simp [hk, step]

/-- All that is changed when instances are ended early, besides the instances and the timers. -/
theorem Felled.eq (h : Felled error c js c') : c' = { c with
    instances := c'.instances
    timers := c'.timers
    archive := js.foldl (fun archive i =>
      (archive.insert i.id (i.fallen (error i.id))).keepLast c.limits.archiveSize) c.archive
    calls := js.foldl (fun calls i => calls.cancelOwned i.id) c.calls
    notices := c.notices ++ (js.map fun i => i.fallNotice (error i.id)).toArray
    produced := c.produced ++ (js.map fun i => i.fallReport (error i.id)).toArray } := by
  induction h with
  | nil c => simp
  | @cons c c' i rest live _ ih =>
    rw [ih, abort_eq live]
    simp [notify, produce, retire, Instance.fallen, Instance.fallNotice, Instance.fallReport]

theorem Felled.removes (h : Felled error c js c') : Removes c c' := by
  induction h with
  | nil c => exact .refl
  | cons live _ ih => exact .head ⟨_, ends_abort live rfl _⟩ ih

/-- Whoever goes on waits as before. -/
theorem Felled.waitOf?_eq (h : Felled error c js c') (hk : k ∉ js.map Instance.id) :
    c'.toSession.waitOf? k = c.toSession.waitOf? k := by
  induction h with
  | nil c => rfl
  | @cons c c' i rest live _ ih =>
    obtain ⟨other, more⟩ := not_or.1 (mt List.mem_cons.2 hk)
    exact (ih more).trans ((ends_abort live rfl _).waitOf?_of_ne other)

/-- The timers of those that have ended are out, and the others are armed as before. -/
theorem Felled.armed_iff (h : Felled error c js c') (timed : c.toSession.Timed) {t : TimerId}
    {timer : Timer} : c'.timers.armed.get? t = some timer ↔
      c.timers.armed.get? t = some timer ∧ timer.owner ∉ js.map Instance.id := by
  refine ⟨fun ht => ⟨?_, fun ended => ?_⟩, fun ⟨ht, stays⟩ => ?_⟩
  · exact h.removes.loses_timers.armed t timer ht
  · obtain ⟨w, hw, -⟩ := (h.removes.timed timed).owned t timer ht
    rw [Session.waitOf?, h.get?_instances, if_pos ended] at hw
    cases hw
  · obtain ⟨w, hw, own⟩ := timed.owned t timer ht
    rw [h.removes.get?_timers timed ((h.waitOf?_eq stays).trans hw) own, ht]

end Cascade

/-! ## What goes down -/

namespace Cascade

variable {c c' : Cascade} {root i : Instance} {k : InstanceId}

/-- Why an instance goes down: for an error, or because another one does. -/
def reasonFor (root : Instance) (error : FlowError) (id : InstanceId) : FlowError :=
  if id = root.id then error else .parentTerminated root.label

/-- An instance is ended early, and all that is attached to it goes down with it. -/
structure TakesDown (c : Cascade) (root : Instance) (error : FlowError) (isReported : Bool)
    (doomed : List Instance) (c' : Cascade) : Prop where
  /-- Those that go down are live, and go down as they are. -/
  live : ∀ j ∈ doomed, c.instances.get? j.id = some j
  nodup : (doomed.map Instance.id).Nodup
  /-- They are the instance itself and what hangs on it by children that are not detached. -/
  attached : ∀ k, k ∈ doomed.map Instance.id ↔ c.toSession.Attached root.id k
  /-- They go down in preorder. -/
  preorder : Instance.Preorder c.instances [root.id] (doomed.map Instance.id)
  /-- The children of each of them are those that are not detached, listed by age. -/
  children : ∀ j ∈ doomed, (j.children.Pairwise fun a b => a.number < b.number) ∧
    ∀ k, k ∈ j.children ↔
      ∃ i, c.instances.get? k = some i ∧ i.parent = some j.id ∧ i.isDetached = false
  /-- They are gone, and the others are what they were, but for their links to those. -/
  instances : ∀ k, c'.instances.get? k = if k ∈ doomed.map Instance.id then none
    else (c.instances.get? k).map (Instance.outliving root (doomed.map Instance.id) k)
  /-- Their timers are out, and the others are armed as before. -/
  timers : c'.timers.issued = c.timers.issued ∧ ∀ t timer,
    c'.timers.armed.get? t = some timer ↔
      c.timers.armed.get? t = some timer ∧ timer.owner ∉ doomed.map Instance.id
  /-- Their calls are forgotten if they are still queued, and cancelled otherwise. The calls of
  others are what they were. -/
  calls : c'.calls.issued = c.calls.issued ∧ ∀ k, c'.calls.stage? k = (c.calls.stage? k).bind
    fun s => if s.owner ∈ doomed.map Instance.id ∧ s.isCancelled = false then s.cancel else some s
  /-- Their results, should they ever come, are not delivered. -/
  results : ∀ k call, c.calls.pending.get? k = some call → call.owner ∈ doomed.map Instance.id →
    ∀ d, ReflTransGen Moves c' d → (d.calls.complete k).1 = .unknown ∨
      ∃ action, (d.calls.complete k).1 = .discard action
  /-- Each of them is remembered as having been ended early, as far as there is room. -/
  remembered : ∀ j ∈ doomed, ∀ i, c'.archive.get? j.id = some i →
    i = j.fallen (reasonFor root error j.id)
  /-- Only the instance itself is a failure of the turn, and only if that is wanted. All this is
  noted and reported, and nothing else is changed. -/
  rest : c' = { c with
    instances := c'.instances
    timers := c'.timers
    calls := doomed.foldl (fun calls j => calls.cancelOwned j.id) c.calls
    archive := doomed.foldl (fun archive j =>
      (archive.insert j.id (j.fallen (reasonFor root error j.id))).keepLast c.limits.archiveSize)
        c.archive
    notices := c.notices ++ (doomed.map fun j => j.fallNotice (reasonFor root error j.id)).toArray
    produced := c.produced ++
      (doomed.map fun j => j.fallReport (reasonFor root error j.id)).toArray
    failures := if isReported then c.failures.push ⟨root.id, root.flowName, error⟩
      else c.failures }

/-- What is remembered after some have ended is one of them, or was remembered before. -/
theorem get?_foldl_retire {size : Nat} {f : Instance → Instance} (js : List Instance)
    {archive : Table InstanceId Instance}
    (h : (js.foldl (fun archive j => (archive.insert j.id (f j)).keepLast size) archive).get? k =
      some i) : (∃ j ∈ js, j.id = k ∧ i = f j) ∨
        k ∉ js.map Instance.id ∧ archive.get? k = some i := by
  induction js generalizing archive with
  | nil => exact .inr ⟨List.not_mem_nil, h⟩
  | cons j rest ih =>
    rcases ih h with ⟨j', hj', same⟩ | ⟨others, before⟩
    · exact .inl ⟨j', List.mem_cons_of_mem _ hj', same⟩
    · have kept := Table.get?_of_keepLast before
      rw [Table.get?_insert] at kept
      split at kept
      · next same => exact .inl ⟨j, List.mem_cons_self, same.symm, (Option.some.inj kept).symm⟩
      · next other => exact .inr ⟨fun hk => (List.mem_cons.1 hk).elim other others, kept⟩

/-- None of those that go down is touched by the end of those before it. -/
theorem pairwise_misses (h : c.toSession.Coherent) (hi : c.instances.get? root.id = some root) :
    (Instance.subtree c.instances [root.id]).Pairwise c.Misses := by
  have searches := Session.searches_root h.kinship h.byAge hi
  have distinct := Instance.nodup_subtree c.instances [root.id]
  refine (distinct.and searches.parents).imp_of_mem fun {a b} ha hb both i j hi' hj => ?_
  refine ⟨both.1, both.2 i hi', fun detached parent => ?_⟩
  -- Whoever may outlive its parent goes down only if it is the first, and then its parent does not.
  cases (Session.mem_subtree_iff h.kinship h.linked hi).1 hb with
  | root =>
    obtain rfl := Option.some.inj (hi.symm.trans hj)
    exact Nat.not_lt.2 (searches.least a ha) (h.kinship.descends _ _ a hi parent).1
  | child _ live _ attached =>
    obtain rfl := Option.some.inj (live.symm.trans hj)
    rw [detached] at attached
    cases attached

/-- What goes down ends one after the other, as it has been. -/
theorem exists_felled_terminate (h : c.toSession.Coherent)
    (hi : c.instances.get? root.id = some root) (error : FlowError) (isReported : Bool) :
    let c₁ : Cascade := { c with
      failures := if isReported then c.failures.push ⟨root.id, root.flowName, error⟩
        else c.failures }
    ∃ rest, (root :: rest).map Instance.id = Instance.subtree c.instances [root.id] ∧
      (∀ j ∈ root :: rest, c.instances.get? j.id = some j) ∧
        Felled (reasonFor root error) c₁ (root :: rest) (c.terminate root.id error isReported) := by
  intro c₁
  have terminate_eq : c.terminate root.id error isReported =
      (Instance.subtree c.instances [root.id]).foldl
        (fun c id => c.abort id (reasonFor root error id)) c₁ := by
    simp only [terminate, hi]
    rfl
  obtain ⟨js, ids, live, felled⟩ := exists_felled (c := c₁) h.sound (reasonFor root error)
    (Instance.subtree c.instances [root.id]) (fun k hk => Instance.isSome_of_mem_subtree hk)
    (pairwise_misses h hi)
  rw [← terminate_eq] at felled
  -- The instance itself is the first one to go down.
  rw [Instance.subtree_of_live hi] at ids
  cases js with
  | nil => cases ids
  | cons j rest =>
    obtain ⟨first, -⟩ := List.cons.inj ids
    have same : c.instances.get? j.id = some j := live j List.mem_cons_self
    obtain rfl : root = j := Option.some.inj (hi.symm.trans (first ▸ same))
    exact ⟨rest, ids.trans (Instance.subtree_of_live hi).symm, live, felled⟩

/-- Ending an instance early takes down what is attached to it. -/
theorem exists_takesDown (h : c.toSession.Coherent) (hi : c.instances.get? root.id = some root)
    (error : FlowError) (isReported : Bool) :
    ∃ doomed, c.TakesDown root error isReported doomed
      (c.terminate root.id error isReported) := by
  obtain ⟨rest, ids, live, felled⟩ := exists_felled_terminate h hi error isReported
  have attached (k : InstanceId) : k ∈ (root :: rest).map Instance.id ↔
      c.toSession.Attached root.id k := by
    rw [ids]
    exact Session.mem_subtree_iff h.kinship h.linked hi
  have distinct : ((root :: rest).map Instance.id).Nodup := ids ▸ Instance.nodup_subtree ..
  -- Whoever goes down for another one has a parent that goes down.
  have below (k : InstanceId) (stays : k ∉ (root :: rest).map Instance.id) :
      ∀ j ∈ rest, j.parent ≠ some k := by
    intro j hj parent
    have hj' : j.id ∈ (root :: rest).map Instance.id :=
      List.mem_map_of_mem (List.mem_cons_of_mem _ hj)
    have other : j.id ≠ root.id := fun same =>
      (List.nodup_cons.1 distinct).1 (same ▸ List.mem_map_of_mem hj)
    have hlive := live j (List.mem_cons_of_mem _ hj)
    obtain ⟨p, hp, above⟩ := ((attached j.id).1 hj').parent other hlive
    obtain rfl := Option.some.inj (parent.symm.trans hp)
    exact stays ((attached _).2 above)
  have removed := felled.removes
  have calls : (c.terminate root.id error isReported).calls =
      ((root :: rest).map Instance.id).foldl Calls.cancelOwned c.calls := by
    rw [felled.eq, List.foldl_map]
  have archive : (c.terminate root.id error isReported).archive =
      (root :: rest).foldl (fun archive j => (archive.insert j.id
        (j.fallen (reasonFor root error j.id))).keepLast c.limits.archiveSize) c.archive := by
    rw [felled.eq]
  refine ⟨root :: rest, ?_⟩
  constructor
  case live => exact live
  case nodup => exact distinct
  case attached => exact attached
  case preorder => exact ids ▸ (Session.searches_root h.kinship h.byAge hi).preorder
  case children =>
    exact fun j hj => ⟨h.byAge j.id j (live j hj), fun k => h.mem_children_iff (live j hj)⟩
  case instances =>
    intro k
    rw [felled.get?_instances]
    split
    · rfl
    · next stays =>
      rw [funext (Instance.bereft_eq_outliving (below k stays))]
  case timers => exact ⟨removed.loses_timers.issued, fun t timer => felled.armed_iff h.timed⟩
  case calls =>
    exact ⟨removed.loses_calls.issued, fun k => by rw [calls, Calls.stage?_foldl_cancelOwned]⟩
  case results =>
    intro k call hk owner d later
    have issued : k.number ≤ (c.terminate root.id error isReported).calls.issued := by
      rw [removed.loses_calls.issued]
      exact h.sound.calls k call hk
    refine (later_of_moves later).calls.complete_of_cancelled issued fun call' hk' => ?_
    rw [calls] at hk'
    exact Calls.isCancelled_foldl_cancelOwned hk owner hk'
  case remembered =>
    intro j hj i hi
    rw [archive] at hi
    rcases get?_foldl_retire (root :: rest) hi with ⟨j', hj', same, rfl⟩ | ⟨stays, -⟩
    · obtain rfl : j' = j := Option.some.inj ((live j' hj').symm.trans (same ▸ live j hj))
      rfl
    · exact absurd (List.mem_map_of_mem hj) stays
  case rest => exact felled.eq

end Cascade

/-! ## When instances are ended early -/

namespace Cascade

variable {c c' : Cascade} {i : Instance} {w : Wait}

/-- Nobody goes down with what it awaits. -/
theorem isSome_giveUp {a : Armed} (h : c.toSession.Coherent)
    (live : (c.instances.get? i.id).isSome) (own : c.toSession.Awaits i.id [a]) :
    ((c.giveUp a).instances.get? i.id).isSome := by
  cases a with
  | event => exact live
  | call k => exact live
  | child k =>
    cases hk : c.instances.get? k with
    | none =>
      rw [giveUp, terminate_eq_self hk]
      exact live
    | some j =>
      obtain rfl := h.sound.id_eq hk
      obtain ⟨parent, -⟩ := (own j.id List.mem_cons_self).2 j hk
      obtain ⟨doomed, down⟩ := exists_takesDown h hk (.stopped "another alternative resolved") false
      have younger := (h.kinship.descends _ _ _ hk parent).1
      have stays : i.id ∉ doomed.map Instance.id := fun falls =>
        Nat.not_lt.2 (((down.attached i.id).1 falls).least h.kinship) younger
      rw [giveUp, down.instances, if_neg stays, Option.isSome_map]
      exact live

/-- Giving up arms takes a session to a state in which the instance itself is still live. -/
theorem moves_giveUpAll (kept : Option Nat) : ∀ (arms : List Armed) (index : Nat) {c : Cascade},
    c.toSession.Coherent → Owns i.id arms c → c.toSession.Awaits i.id arms →
      (c.instances.get? i.id).isSome → ReflTransGen Moves c (c.giveUpAll kept index arms) ∧
        ((c.giveUpAll kept index arms).instances.get? i.id).isSome
  | [], _, _, _, _, _, live => ⟨.refl, live⟩
  | a :: rest, index, c, h, owns, own, live => by
    obtain ⟨changes, still⟩ : Changes c (if kept = some index then c else c.giveUp a) ∧
        ((if kept = some index then c else c.giveUp a).instances.get? i.id).isSome := by
      split
      · exact ⟨.refl, live⟩
      · have single : Owns i.id [a] c := owns.changes .refl (by simp)
        have first : c.toSession.Awaits i.id [a] := fun k hk =>
          own k (List.mem_singleton.1 hk ▸ List.mem_cons_self)
        exact ⟨(giveUp_spec h.sound single).1, isSome_giveUp h live first⟩
    have moves := moves_of_changes changes
    have others : c.toSession.Awaits i.id rest := fun k hk => own k (List.mem_cons_of_mem _ hk)
    obtain ⟨more, last⟩ := moves_giveUpAll kept rest (index + 1) (coherent_of_moves moves h)
      (owns.changes changes fun b hb => List.mem_cons_of_mem a hb)
      (others.later (Changes.later changes)) still
    exact ⟨moves.trans more, last⟩

/-- Giving up arms up to one that is not kept, then that one, and then the others. -/
theorem giveUpAll_eq (kept : Option Nat) {a : Armed} : ∀ (arms : List Armed) (index n : Nat)
    (c : Cascade), arms[n]? = some a → kept ≠ some (index + n) → c.giveUpAll kept index arms =
      ((c.giveUpAll kept index (arms.take n)).giveUp a).giveUpAll kept (index + n + 1)
        (arms.drop (n + 1))
  | [], _, _, _, hn, _ => by cases hn
  | b :: rest, index, 0, c, hn, other => by
    obtain rfl := Option.some.inj hn
    have first : kept ≠ some index := other
    rw [giveUpAll, if_neg first]
    rfl
  | b :: rest, index, n + 1, c, hn, other => by
    have next : index + (n + 1) = index + 1 + n := by omega
    rw [next] at other ⊢
    exact giveUpAll_eq kept rest (index + 1) n _ hn other

/-- The end of a wait, up to some of its arms. -/
theorem moves_awaken (h : c.toSession.Coherent) (hi : c.instances.get? i.id = some i)
    (hw : i.wait? = some w) (kept : Option Nat) {arms : List Armed} (sub : ∀ a ∈ arms, a ∈ w.arms) :
    ReflTransGen Moves c ((c.awaken i w).giveUpAll kept 0 arms) ∧
      (((c.awaken i w).giveUpAll kept 0 arms).instances.get? i.id).isSome := by
  have wakes := wakes_awaken hi hw
  have first : Moves c (c.awaken i w) := .wakes wakes
  have owns : Owns i.id arms (c.awaken i w) := (owns_awaken h.sound hi hw).changes .refl sub
  have awaits := h.awaitsOwn i.id w (Option.bind_eq_some_iff.2 ⟨i, hi, hw⟩)
  have own : c.toSession.Awaits i.id arms := fun k hk => awaits k (sub _ hk)
  have live : ((c.awaken i w).instances.get? i.id).isSome := by
    rw [awaken, Table.get?_insert_self]
    rfl
  obtain ⟨more, last⟩ := moves_giveUpAll kept arms 0 (first.coherent h) owns
    (own.later wakes.later) live
  exact ⟨.head first more, last⟩

/-- An instruction that fails ends its instance, which is still live by then. -/
theorem step_of_error {e : FlowError} (h : c.toSession.Coherent)
    (hi : c.instances.get? i.id = some i) (running : i.phase = .running)
    (failed : c.execute i ((i.flow.program.get? i.pc).getD .finish) = (c', .error e)) :
    ReflTransGen Moves c c' ∧ (c'.instances.get? i.id).isSome ∧
      c.step i = (c'.terminate i.id e true, []) := by
  obtain ⟨j, hj, -⟩ := (performs_error h.sound hi running failed).hosts
  refine ⟨moves_of_changes (execute_error h.sound hi running failed).changes, by rw [hj]; rfl, ?_⟩
  rw [step, failed]

/-- A resolution that an instance cannot cope with ends it, whether or not its wait has come to its
end before. -/
theorem resume_of_failure {r : Resolution} {e : FlowError} (h : c.toSession.Coherent)
    (hi : c.instances.get? i.id = some i) (hw : i.wait? = some w) (failed : i.failure? r = some e) :
    ∃ d, ReflTransGen Moves c d ∧ (d.instances.get? i.id).isSome ∧
      c.resume i.id r = d.terminate i.id e true := by
  have live : (c.instances.get? i.id).isSome := by rw [hi]; rfl
  have resumed := resumes c i.id r
  generalize c.resume i.id r = c', c.resumeHistory i.id r = ms at resumed
  cases resumed with
  | stays awake => cases awake.symm.trans (Option.bind_eq_some_iff.2 ⟨i, hi, hw⟩)
  | ends hi' _ _ failed' =>
    obtain rfl := Option.some.inj (hi.symm.trans hi')
    obtain rfl := Option.some.inj (failed.symm.trans failed')
    exact ⟨c, .refl, live, rfl⟩
  | advances hi' _ goes checked =>
    obtain rfl := Option.some.inj (hi.symm.trans hi')
    rw [Instance.failure?_eq_none goes checked] at failed
    cases failed
  | fails hi' =>
    -- The wait has come to its end already, and the instance is still live when it fails.
    obtain rfl := Option.some.inj (hi.symm.trans hi')
    obtain rfl := Option.some.inj failed
    obtain ⟨moves, last⟩ := moves_awaken h hi hw none fun _ ha => ha
    rw [← disarm_eq hi hw] at moves last
    exact ⟨_, moves, last, rfl⟩

/-- An arm that is not kept at the end of a wait is given up after the ones before it. -/
theorem disarm_of_losing (h : c.toSession.Coherent) (hi : c.instances.get? i.id = some i)
    (hw : i.wait? = some w) {kept : Option Nat} {n : Nat} {a : Armed} (hn : w.arms[n]? = some a)
    (other : kept ≠ some n) : ∃ d, ReflTransGen Moves c d ∧
      c.disarm i kept = (d.giveUp a).giveUpAll kept (n + 1) (w.arms.drop (n + 1)) := by
  obtain ⟨moves, -⟩ := moves_awaken h hi hw kept fun a ha => List.mem_of_mem_take (i := n) ha
  refine ⟨_, moves, ?_⟩
  rw [disarm_eq hi hw, giveUpAll_eq kept w.arms 0 n _ hn (by rwa [Nat.zero_add]), Nat.zero_add]

end Cascade

namespace Session

theorem coherent_new (name : String) (library : FlowLibrary) (limits : Limits) (context : Params) :
    (new name library limits context).Coherent :=
  ⟨⟨sound_new .., linked_new name library limits context, kinship_new .., fun _ _ h => by cases h⟩,
    timed_new .., fun _ _ h => by cases h⟩

/-- In every state that a session comes to, ending a live instance early takes down what is attached
to it, and nothing else. That is what happens when an instance is ended from outside, when it fails
at an instruction, when it cannot cope with how its wait has ended, and when another one that has
awaited it goes on for something else. -/
theorem attached_go_down (name : String) (library : FlowLibrary) (limits : Limits)
    (context : Params) :
    let s₀ := new name library limits context
    (∀ c, s₀.Reaches c → ∀ i, c.instances.get? i.id = some i → ∀ error isReported,
      s₀.Reaches (c.terminate i.id error isReported) ∧
        ∃ doomed, c.TakesDown i error isReported doomed (c.terminate i.id error isReported)) ∧
    (∀ os, let s := s₀.applyAll os
      s₀.Reaches s.openCascade ∧ (s.checkOpen = .ok () → ∀ id reason,
        s.abort id reason = .ok (s.openCascade.terminate id (.stopped reason) true).run)) ∧
    (∀ c, s₀.Reaches c → ∀ i, c.instances.get? i.id = some i →
      (i.phase = .running → ∀ d e,
        c.execute i ((i.flow.program.get? i.pc).getD .finish) = (d, .error e) →
          s₀.Reaches d ∧ (d.instances.get? i.id).isSome ∧
            c.step i = (d.terminate i.id e true, [])) ∧
      (∀ w, i.wait? = some w →
        (∀ r e, i.failure? r = some e → ∃ d, s₀.Reaches d ∧ (d.instances.get? i.id).isSome ∧
          c.resume i.id r = d.terminate i.id e true) ∧
        (∀ kept n k, w.arms[n]? = some (.child k) → kept ≠ some n → ∃ d, s₀.Reaches d ∧
          c.disarm i kept =
            (d.terminate k (.stopped "another alternative resolved") false).giveUpAll kept (n + 1)
              (w.arms.drop (n + 1))))) := by
  intro s₀
  have coherent {c : Cascade} (h : s₀.Reaches c) : c.toSession.Coherent :=
    Cascade.coherent_of_moves h (coherent_new name library limits context)
  -- Every state that is reached is coherent, and so is everything that moves come to from there.
  refine ⟨fun c hc i hi error isReported => ⟨?_, ?_⟩, fun os => ⟨?_, fun isOpen id reason => ?_⟩,
    fun c hc i hi => ⟨fun running d e failed => ?_, fun w hw => ⟨fun r e failed => ?_,
      fun kept n k hn other => ?_⟩⟩⟩
  · have changes := Cascade.changes_terminate (coherent hc).sound i.id error isReported
    exact hc.trans (Cascade.moves_of_changes changes)
  · exact Cascade.exists_takesDown (coherent hc) hi error isReported
  · exact (path_historyOf (sound_new name library limits context) os).moves
  · rw [Session.abort, isOpen]
    rfl
  · obtain ⟨moves, live, stepped⟩ := Cascade.step_of_error (coherent hc) hi running failed
    exact ⟨hc.trans moves, live, stepped⟩
  · obtain ⟨d, moves, live, resumed⟩ := Cascade.resume_of_failure (coherent hc) hi hw failed
    exact ⟨d, hc.trans moves, live, resumed⟩
  · obtain ⟨d, moves, disarmed⟩ := Cascade.disarm_of_losing (coherent hc) hi hw hn other
    exact ⟨d, hc.trans moves, disarmed⟩

end Session

end Dialogue
