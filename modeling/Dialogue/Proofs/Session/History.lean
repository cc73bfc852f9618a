import Dialogue.Proofs.Session.Activation

/-!
# The history of a turn

Three kinds of moments of a turn are told apart from the rest: an instance is suspended, an instance
is woken because its wait has come to an end, and an event is delivered. The history of a turn lists
these moments in order. It is computed along with the turn, by the same recursions, and each moment
comes with the state at that time.

A history is a path of changes: between two moments nothing happens but quiet changes, and a moment
is what it says it is.

## Main definitions

* `Moment` — what a history tells
* `Armed.IsLost` — nothing comes of what an arm was waiting for
* `Moment.Happens` — a moment is what it says it is
* `Path` — changes with the moments among them
* `Resolution.kept?`, `Resolution.target?` — the arm that ends a wait, and where that leads
* `Instance.failure?` — the error by which the end of a wait ends an instance
* `Cascade.stackHistory`, `Cascade.resumeHistory`, `Cascade.drainHistory` — the history of a turn

## Main results

* `Cascade.path_runStack`, `Cascade.path_resume`, `Cascade.path_drain` — histories are paths
-/

namespace Dialogue

open Relation (ReflTransGen)

/-- A moment of a turn. -/
inductive Moment where
  /-- An instance has been suspended. The state is the one right after that. -/
  | suspended (id : InstanceId) (wait : Wait) (state : Cascade)
  /-- The wait of an instance has come to its end; the instance goes on at a place, if one is
  provided. All arms but one are given up between the two states. -/
  | woken (id : InstanceId) (wait : Wait) (kept target : Option Nat) (before after : Cascade)
  /-- An event is delivered. The state is the one right before that. -/
  | delivered (event : Event) (state : Cascade)

/-- Nothing comes of what an arm was waiting for: the child has ended, or the call will neither be
dispatched nor deliver its result. -/
def Armed.IsLost (s : Session) : Armed → Prop
  | .event => True
  | .child k => s.instances.get? k = none
  | .call k => s.calls.IsSpent k

/-- What is lost stays lost. -/
theorem Armed.IsLost.later {s s' : Session} {a : Armed} (h : a.IsLost s) (issued : a.IsIssued s)
    (l : s.Later s') : a.IsLost s' := by
  cases a with
  | event => trivial
  | child k => exact l.gone issued h
  | call k => exact l.calls.isSpent issued h

/-! ## Paths -/

/-- A moment is what it says it is. When an instance is woken, everything that its wait was about is
lost, except for what is kept. -/
inductive Moment.Happens (R : Cascade → Cascade → Prop) : Moment → Cascade → Cascade → Prop
  | suspended {c c' id w} (h : c.Suspends id w c') : Happens R (.suspended id w c') c c'
  | woken {c c₁ c' id w kept target} (h : c.Wakes id w c₁) (giving : ReflTransGen R c₁ c')
    (lost : ∀ n a, w.arms[n]? = some a → kept ≠ some n → a.IsLost c'.toSession)
    (disarmed : ∀ t, w.timer = some t → c'.timers.armed.get? t = none) :
    Happens R (.woken id w kept target c c') c c'
  | delivered (e c) : Happens R (.delivered e c) c c

theorem Moment.Happens.mono {R S : Cascade → Cascade → Prop} {m : Moment} {c c' : Cascade}
    (h : m.Happens R c c') (sub : ∀ c c', R c c' → S c c') : m.Happens S c c' := by
  cases h with
  | suspended h => exact .suspended h
  | woken h giving lost disarmed =>
    exact .woken h (ReflTransGen.mono sub _ _ giving) lost disarmed
  | delivered e => exact .delivered e c

/-- Changes of some kind, one after the other, with the moments among them. -/
inductive Path (R : Cascade → Cascade → Prop) : Cascade → List Moment → Cascade → Prop
  | nil (c) : Path R c [] c
  | change {c c₁ c' ms} (h : R c c₁) (rest : Path R c₁ ms c') : Path R c ms c'
  | moment {c c₁ c' m ms} (h : m.Happens R c c₁) (rest : Path R c₁ ms c') : Path R c (m :: ms) c'

namespace Path

variable {R S : Cascade → Cascade → Prop} {c c' c'' : Cascade} {m : Moment} {ms ms' : List Moment}

theorem of_changes (h : ReflTransGen R c c') : Path R c [] c' := by
  induction h using ReflTransGen.head_induction_on with
  | refl => exact .nil _
  | head h _ ih => exact .change h ih

theorem single (h : R c c') : Path R c [] c' := .change h (.nil c')

theorem trans (h : Path R c ms c') (h' : Path R c' ms' c'') : Path R c (ms ++ ms') c'' := by
  induction h with
  | nil => exact h'
  | change h _ ih => exact .change h (ih h')
  | moment h _ ih => exact .moment h (ih h')

theorem mono (h : Path R c ms c') (sub : ∀ c c', R c c' → S c c') : Path S c ms c' := by
  induction h with
  | nil => exact .nil _
  | change h _ ih => exact .change (sub _ _ h) ih
  | moment h _ ih => exact .moment (h.mono sub) ih

/-- A property that every change keeps holds at the end of a path. -/
theorem induct {P : Cascade → Prop} (h : Path R c ms c') (hc : P c)
    (change : ∀ c c', R c c' → P c → P c')
    (suspend : ∀ c c' id w, c.Suspends id w c' → P c → P c')
    (wake : ∀ c c' id w, c.Wakes id w c' → P c → P c') : P c' := by
  -- What is given up at a waking is given up by quiet changes.
  have changes : ∀ {c c'}, ReflTransGen R c c' → P c → P c' := by
    intro c c' h hc
    induction h with
    | refl => exact hc
    | tail _ last ih => exact change _ _ last ih
  induction h with
  | nil => exact hc
  | change h _ ih => exact ih (change _ _ h hc)
  | moment h _ ih =>
    cases h with
    | suspended h => exact ih (suspend _ _ _ _ h hc)
    | woken h giving => exact ih (changes giving (wake _ _ _ _ h hc))
    | delivered => exact ih hc

/-- A session stays sound if every change keeps it so. -/
theorem sound_of (h : Path R c ms c') (hs : c.toSession.Sound)
    (sound : ∀ c c', R c c' → c.toSession.Sound → c'.toSession.Sound) : c'.toSession.Sound :=
  h.induct (P := fun c => c.toSession.Sound) hs sound (fun _ _ _ _ h => h.sound)
    fun _ _ _ _ h => h.sound

/-- A property that every change keeps in a sound session holds at the end of a path. -/
theorem induct_of_sound {P : Cascade → Prop} (h : Path R c ms c') (hs : c.toSession.Sound)
    (hc : P c) (sound : ∀ c c', R c c' → c.toSession.Sound → c'.toSession.Sound)
    (change : ∀ c c', R c c' → c.toSession.Sound → P c → P c')
    (suspend : ∀ c c' id w, c.Suspends id w c' → c.toSession.Sound → P c → P c')
    (wake : ∀ c c' id w, c.Wakes id w c' → c.toSession.Sound → P c → P c') : P c' :=
  (h.induct (P := fun c => c.toSession.Sound ∧ P c) ⟨hs, hc⟩
    (fun _ _ h hp => ⟨sound _ _ h hp.1, change _ _ h hp.1 hp.2⟩)
    (fun _ _ _ _ h hp => ⟨h.sound hp.1, suspend _ _ _ _ h hp.1 hp.2⟩)
    fun _ _ _ _ h hp => ⟨h.sound hp.1, wake _ _ _ _ h hp.1 hp.2⟩).2

/-- A path at one of its moments: the way there, the moment, and the way from there on. -/
theorem at_moment (h : Path R c ms c') : ∀ {pre post : List Moment}, ms = pre ++ m :: post →
    ∃ d d', Path R c pre d ∧ m.Happens R d d' ∧ Path R d' post c' := by
  induction h with
  | nil => exact fun hm => by simp at hm
  | change h _ ih =>
    intro pre post hm
    -- A change shows nothing, so the moment lies behind it.
    obtain ⟨d, d', before, happens, after⟩ := ih hm
    exact ⟨d, d', .change h before, happens, after⟩
  | moment h rest ih =>
    rintro (_ | ⟨m', pre⟩) post hm
    · obtain ⟨rfl, rfl⟩ := List.cons.inj hm
      exact ⟨_, _, .nil _, h, rest⟩
    · obtain ⟨rfl, tail⟩ := List.cons.inj hm
      obtain ⟨d, d', before, happens, after⟩ := ih tail
      exact ⟨d, d', .moment h before, happens, after⟩

theorem sound (h : Path Cascade.Change c ms c') (hs : c.toSession.Sound) : c'.toSession.Sound :=
  h.sound_of hs fun _ _ h => h.sound

theorem linked (h : Path Cascade.Change c ms c') (hs : c.toSession.Sound)
    (hl : c.toSession.Linked) : c'.toSession.Linked :=
  h.induct_of_sound hs hl (fun _ _ h => h.sound) (fun _ _ h => h.linked)
    (fun _ _ _ _ h _ => h.linked) fun _ _ _ _ h _ => h.linked

end Path

/-- The moments of a list of steps, each from where the one before has led. -/
def foldHistory {σ α : Type*} (step : σ → α → σ) (moments : σ → α → List Moment) :
    σ → List α → List Moment
  | _, [] => []
  | s, a :: rest => moments s a ++ foldHistory step moments (step s a) rest

/-! ## Resolutions -/

/-- The arm that ends a wait, which is not given up. -/
def Resolution.kept? : Resolution → Option Nat
  | .arm index _ _ => some index
  | .failure index _ _ => some index
  | .timeout _ => none

/-- Where a resolution lets an instance go on, and with which bindings, if it does. -/
def Resolution.target? : Resolution → Option (Nat × Params)
  | .arm _ a bindings => some (a.resume, bindings)
  | .failure _ a _ => a.onFailure.map (·, ∅)
  | .timeout handler => handler.map (·, ∅)

/-- The error by which a resolution ends an instance, unless that can go on. -/
def Instance.failure? (i : Instance) : Resolution → Option FlowError
  | .arm _ _ bindings =>
    match checkBindings i.locals bindings i.isParameter with
    | .error e => some e
    | .ok () => none
  | .failure _ arm reason =>
    match arm.onFailure with
    | some _ => none
    | none => some (.actionFailed (Cascade.leadLabel arm.lead) reason)
  | .timeout (some _) => none
  | .timeout none => some .timeoutUnhandled

/-- An instance can go on where a resolution leads if the bindings are accepted. -/
theorem Instance.failure?_eq_none {i : Instance} {r : Resolution} {pc : Nat} {bindings : Params}
    (goes : r.target? = some (pc, bindings))
    (checked : checkBindings i.locals bindings i.isParameter = .ok ()) : i.failure? r = none := by
  cases r with
  | arm _ arm _ =>
    obtain ⟨-, rfl⟩ := Prod.mk.inj (Option.some.inj goes)
    rw [failure?, checked]
  | failure _ arm _ =>
    obtain ⟨handler, handled, -⟩ := Option.map_eq_some_iff.1 goes
    rw [failure?, handled]
  | timeout handler =>
    obtain ⟨pc, rfl, -⟩ := Option.map_eq_some_iff.1 goes
    rfl

namespace Cascade

/-! ## The history of an activation -/

/-- The moments of a step: its instance may have been suspended. -/
def stepHistory (c : Cascade) (i : Instance) : List Moment :=
  match (c.step i).1.toSession.waitOf? i.id with
  | some wait => [.suspended i.id wait (c.step i).1]
  | none => []

/-- The moments while the instances of a stack are run. -/
def stackHistory (root : InstanceId) : Nat → List InstanceId → Cascade → List Moment
  | budget, stack, c =>
    match c.firstRunning? stack with
    | none => []
    | some (i, rest) =>
      match budget with
      | 0 => []
      | budget + 1 =>
        c.stepHistory i ++
          stackHistory root budget ((c.step i).2 ++ i.id :: rest) (c.step i).1

/-- The moments of an activation. -/
def activateHistory (c : Cascade) (id : InstanceId) : List Moment :=
  stackHistory id c.limits.activationSteps [id] c

/-! ## The history of a delivery -/

/-- An instance at the place where it goes on, before it does. -/
def relocate (c : Cascade) (id : InstanceId) (pc : Nat) (bindings : Params) : Cascade :=
  c.change id fun i => { i with
    locals := bindings.entries.foldl (fun locals e => locals.insert e.1 e.2) i.locals
    pc
    phase := .running }

theorem advance_eq (c : Cascade) (id : InstanceId) (pc : Nat) (bindings : Params) :
    c.advance id pc bindings = (c.relocate id pc bindings).activate id := rfl

/-- The moments when an instance goes on. -/
def advanceHistory (c : Cascade) (id : InstanceId) (pc : Nat) (bindings : Params) : List Moment :=
  (c.relocate id pc bindings).activateHistory id

/-- The moments when the wait of an instance is resolved. There are none if that ends the
instance. -/
def resumeHistory (c : Cascade) (id : InstanceId) (r : Resolution) : List Moment :=
  match c.instances.get? id with
  | none => []
  | some i =>
    match i.wait? with
    | none => []
    | some wait =>
      match r with
      | .arm index arm bindings =>
        match checkBindings i.locals bindings i.isParameter with
        | .error _ => []
        | .ok () =>
          .woken id wait (some index) (some arm.resume) c (c.disarm i (some index)) ::
            (c.disarm i (some index)).advanceHistory id arm.resume bindings
      | .failure index arm _ =>
        match arm.onFailure with
        | some handler =>
          .woken id wait (some index) (some handler) c (c.disarm i (some index)) ::
            (c.disarm i (some index)).advanceHistory id handler ∅
        | none => []
      | .timeout handler =>
        .woken id wait none handler c (c.disarm i none) ::
          match handler with
          | some handler => (c.disarm i none).advanceHistory id handler ∅
          | none => []

/-- The instances whose patterns cannot be evaluated. -/
def broken (c : Cascade) (e : Event) : List (InstanceId × FlowError) :=
  (c.candidates e).filterMap fun
    | (id, .error err) => some (id, err)
    | _ => none

/-- The claims to an event. -/
def claims (c : Cascade) (e : Event) : List Claim :=
  (c.candidates e).filterMap fun
    | (_, .ok (some (.claim claim))) => some claim
    | _ => none

/-- The instances that take an event. -/
def consumers (c : Cascade) (e : Event) : List (InstanceId × Resolution) :=
  (c.candidates e).filterMap fun
    | (id, .ok (some (.addressed r))) => some (id, r)
    | (id, .ok (some (.claim claim))) =>
      if (winners (c.claims e)).any fun w => w.id = id then
        some (id, .arm claim.index claim.arm claim.bindings) else none
    | _ => none

/-- A cascade after the instances with broken patterns have been ended. -/
def purge (c : Cascade) (e : Event) : Cascade :=
  (c.broken e).foldl (fun c b => c.terminate b.1 b.2 true) c

theorem deliver_eq (c : Cascade) (e : Event) :
    c.deliver e = (c.consumers e).foldl (fun c r => c.resume r.1 r.2) (c.purge e) := rfl

/-- The moments of a delivery. -/
def deliverHistory (c : Cascade) (e : Event) : List Moment :=
  .delivered e c :: foldHistory (fun c r => c.resume r.1 r.2) (fun c r => c.resumeHistory r.1 r.2)
    (c.purge e) (c.consumers e)

/-- The moments until the queue is empty. -/
def drainHistory : Nat → Cascade → List Moment
  | budget, c =>
    match c.queue with
    | [] => []
    | e :: rest =>
      match budget with
      | 0 => []
      | budget + 1 =>
        ({ c with queue := rest } : Cascade).deliverHistory e ++
          drainHistory budget (({ c with queue := rest } : Cascade).deliver e).settle

/-- The moments of the rest of a turn. -/
def runHistory (c : Cascade) : List Moment := drainHistory c.limits.cascadeSteps c.settle

/-! ## Histories are paths -/

variable {c c' : Cascade} {id : InstanceId} {i : Instance} {w : Wait}

theorem Suspends.waitOf?_self (h : c.Suspends id w c') : c'.toSession.waitOf? id = some w := by
  obtain ⟨-⟩ := h
  simp [Session.waitOf?, Instance.wait?]

theorem Suspends.waitOf?_of_ne {k : InstanceId} (h : c.Suspends k w c') (hk : id ≠ k) :
    c'.toSession.waitOf? id = c.toSession.waitOf? id := by
  obtain ⟨-⟩ := h
  rw [Session.waitOf?, Session.waitOf?, Table.get?_insert_of_ne hk]

theorem Wakes.waitOf?_self (h : c.Wakes id w c') :
    c.toSession.waitOf? id = some w ∧ c'.toSession.waitOf? id = none := by
  obtain ⟨live, waiting⟩ := h
  refine ⟨?_, ?_⟩
  · rw [Session.waitOf?, live]
    exact Instance.wait?_eq_some.2 waiting
  · rw [Session.waitOf?, Table.get?_insert_self]
    rfl

theorem Wakes.waitOf?_of_ne {k : InstanceId} (h : c.Wakes k w c') (hk : id ≠ k) :
    c'.toSession.waitOf? id = c.toSession.waitOf? id := by
  obtain ⟨-⟩ := h
  rw [Session.waitOf?, Session.waitOf?, Table.get?_insert_of_ne hk]

theorem path_step (hs : c.toSession.Sound) (hi : c.instances.get? i.id = some i)
    (hr : i.phase = .running) : Path Change c (c.stepHistory i) (c.step i).1 := by
  unfold stepHistory
  rcases step_cases hs hi hr with ⟨c₁, w, changes, suspends⟩ | ⟨changes, hw⟩
  · rw [suspends.waitOf?_self]
    exact (Path.of_changes changes).trans (.moment (.suspended suspends) (.nil _))
  · rw [hw]
    exact .of_changes changes

/-- The first running instance of a stack is live, and the others that run stand behind it. -/
theorem firstRunning?_eq_some {rest : List InstanceId} : ∀ {stack : List InstanceId},
    c.firstRunning? stack = some (i, rest) → ∃ id, c.instances.get? id = some i ∧
      i.phase = .running ∧ (Calm stack c → Calm (id :: rest) c)
  | [], h => by cases h
  | id :: stack, h => by
    unfold firstRunning? at h
    split at h
    · next j hj =>
      split at h
      · next hr =>
        cases h
        exact ⟨id, hj, by simpa [Instance.isRunning] using hr, fun hc => hc⟩
      · next hr =>
        -- The first one of the stack is suspended, so those that run stand behind it.
        obtain ⟨k, hk, hrun, calm⟩ := firstRunning?_eq_some h
        refine ⟨k, hk, hrun, fun hc => calm (hc.tail fun l hl hm => ?_)⟩
        obtain rfl := Option.some.inj (hj.symm.trans hl)
        simp [Instance.isRunning, hm] at hr
    · next hj =>
      obtain ⟨k, hk, hrun, calm⟩ := firstRunning?_eq_some h
      refine ⟨k, hk, hrun, fun hc => calm (hc.tail fun l hl => ?_)⟩
      rw [hj] at hl
      cases hl

/-- Ending an instance unless it is suspended. -/
def endRunning (error : FlowError) (c : Cascade) (id : InstanceId) : Cascade :=
  match c.instances.get? id with
  | some i => if i.isWaiting then c else c.terminate id error false
  | none => c

theorem exhaust_eq (c : Cascade) (root : InstanceId) (stack : List InstanceId) :
    c.exhaust root stack =
      stack.foldl (endRunning (.stepLimit c.limits.activationSteps))
        (c.terminate root (.stepLimit c.limits.activationSteps) true) := rfl

theorem changes_endRunning (hs : c.toSession.Sound) (error : FlowError) (id : InstanceId) :
    Changes c (c.endRunning error id) := by
  unfold endRunning
  split
  · split
    · exact .refl
    · exact changes_terminate hs id error false
  · exact .refl

theorem changes_foldl_endRunning (hs : c.toSession.Sound) (error : FlowError)
    (ids : List InstanceId) : Changes c (ids.foldl (endRunning error) c) := by
  induction ids generalizing c with
  | nil => exact .refl
  | cons id rest ih =>
    have first := changes_endRunning hs error id
    exact first.trans (ih (Changes.sound first hs))

theorem changes_exhaust (hs : c.toSession.Sound) (root : InstanceId) (stack : List InstanceId) :
    Changes c (c.exhaust root stack) := by
  rw [exhaust_eq]
  have first := changes_terminate hs root (.stepLimit c.limits.activationSteps) true
  exact first.trans (changes_foldl_endRunning (Changes.sound first hs) _ stack)

theorem path_runStack (root : InstanceId) : ∀ (budget : Nat) (stack : List InstanceId)
    {c : Cascade}, c.toSession.Sound →
      Path Change c (stackHistory root budget stack c) (runStack root budget stack c)
  | budget, stack, c, hs => by
    unfold stackHistory runStack
    cases h : c.firstRunning? stack with
    | none => exact .nil c
    | some first =>
      obtain ⟨i, rest⟩ := first
      cases budget with
      -- Without budget the rest of the stack is ended, which is no moment.
      | zero => exact .of_changes (changes_exhaust hs root _)
      | succ budget =>
        obtain ⟨id, hi, hr, -⟩ := firstRunning?_eq_some h
        have step := path_step hs ((hs.id_eq hi).symm ▸ hi) hr
        exact step.trans (path_runStack root budget _ (step.sound hs))

theorem path_activate (hs : c.toSession.Sound) (id : InstanceId) :
    Path Change c (c.activateHistory id) (c.activate id) :=
  path_runStack id _ _ hs

/-! ## Waking an instance -/

/-- No quiet change suspends an instance. -/
theorem Change.waitOf?_of (h : c.Change c') (hw : c'.toSession.waitOf? id = some w) :
    c.toSession.waitOf? id = some w := by
  have survivors : c.toSession.Survivors c'.toSession → c.toSession.waitOf? id = some w :=
    fun sv => sv.waitOf?_of hw
  cases h with
  | note => exact survivors (.refl _)
  | @begin _ _ _ _ k _ h _ =>
    -- Whatever begins is running.
    by_cases hk : id = k
    · obtain ⟨compiled, depth, -, hget, -⟩ := get?_spawn h
      rw [Session.waitOf?, hget, if_pos hk] at hw
      cases hw
    · rwa [waitOf?_spawn h hk] at hw
  | call => exact survivors (.refl _)
  | @move k i live running pc _ =>
    rw [Session.waitOf?, Table.get?_insert] at hw
    split at hw
    · rw [Option.bind_some, Instance.wait?_eq_some] at hw
      have := running.symm.trans hw
      cases this
    · exact hw
  | cancel => exact survivors (.refl _)
  | prune h => exact survivors h.removes.survivors

theorem Changes.waitOf?_of (h : Changes c c') (hw : c'.toSession.waitOf? id = some w) :
    c.toSession.waitOf? id = some w := by
  induction h with
  | refl => exact hw
  | tail _ last ih => exact ih (last.waitOf?_of hw)

theorem Changes.later (h : Changes c c') : c.toSession.Later c'.toSession := by
  induction h with
  | refl => exact .refl _
  | tail _ last ih => exact ih.trans last.later

/-- Of an instance that is not suspended, and of the calls that it owns. -/
structure Owns (id : InstanceId) (arms : List Armed) (c : Cascade) : Prop where
  awake : c.toSession.waitOf? id = none
  issued : ∀ a ∈ arms, a.IsIssued c.toSession
  owned : ∀ k call, .call k ∈ arms → c.calls.pending.get? k = some call → call.owner = id

theorem Owns.changes {arms arms' : List Armed} (h : Owns id arms c) (changes : Changes c c')
    (sub : ∀ a ∈ arms', a ∈ arms) : Owns id arms' c' where
  awake := by
    rw [Option.eq_none_iff_forall_ne_some]
    intro w hw
    have := changes.waitOf?_of hw
    rw [h.awake] at this
    cases this
  issued a ha := (h.issued a (sub a ha)).later changes.later
  owned k call' hk hcall := by
    obtain ⟨call, hc, ho, -⟩ :=
      changes.later.calls.pending k call' (h.issued _ (sub _ hk)) hcall
    exact ho.trans (h.owned k call (sub _ hk) hc)

theorem giveUp_spec {a : Armed} (hs : c.toSession.Sound) (h : Owns id [a] c) :
    Changes c (c.giveUp a) ∧ c.toSession.Survivors (c.giveUp a).toSession ∧
      a.IsLost (c.giveUp a).toSession := by
  cases a with
  | event => exact ⟨.refl, .refl _, trivial⟩
  | child k =>
    exact ⟨changes_terminate hs k _ false, survivors_terminate hs k _ false,
      get?_terminate_self hs k _ false⟩
  | call k =>
    -- The call belongs to an instance that is awake, so nobody waits for it.
    refine ⟨.single (.cancel fun call hk i hi => ?_), .of_eq rfl, c.calls.isSpent_cancel k⟩
    rw [h.owned k call List.mem_cons_self hk] at hi
    simpa [Session.waitOf?, hi] using h.awake

theorem giveUpAll_spec (kept : Option Nat) : ∀ (arms : List Armed) (index : Nat) {c : Cascade},
    c.toSession.Sound → Owns id arms c → Changes c (c.giveUpAll kept index arms) ∧
      c.toSession.Survivors (c.giveUpAll kept index arms).toSession ∧
        ∀ n a, arms[n]? = some a → kept ≠ some (index + n) →
          a.IsLost (c.giveUpAll kept index arms).toSession
  | [], _, _, _, _ => ⟨.refl, .refl _, fun n a hn => by simp at hn⟩
  | a :: rest, index, c, hs, h => by
    obtain ⟨changes₁, sv₁, lost₁⟩ : Changes c (if kept = some index then c else c.giveUp a) ∧
        c.toSession.Survivors (if kept = some index then c else c.giveUp a).toSession ∧
          (kept ≠ some index →
            a.IsLost (if kept = some index then c else c.giveUp a).toSession) := by
      split
      · next hk => exact ⟨.refl, .refl _, fun hne => absurd hk hne⟩
      · have single : Owns id [a] c := h.changes .refl (by simp)
        obtain ⟨changes, sv, lost⟩ := giveUp_spec hs single
        exact ⟨changes, sv, fun _ => lost⟩
    have h₁ := h.changes changes₁ fun b hb => List.mem_cons_of_mem a hb
    obtain ⟨changes₂, sv₂, lost₂⟩ :=
      giveUpAll_spec kept rest (index + 1) (Changes.sound changes₁ hs) h₁
    -- The first arm is given up at once, and stays lost while the others are given up.
    refine ⟨changes₁.trans changes₂, sv₁.trans sv₂, fun n b hn hne => ?_⟩
    cases n with
    | zero =>
      obtain rfl := Option.some.inj hn
      exact (lost₁ hne).later ((h.issued _ List.mem_cons_self).later (Changes.later changes₁))
        (Changes.later changes₂)
    | succ n => exact lost₂ n b hn (by rwa [show index + 1 + n = index + (n + 1) by omega])

/-- The end of a wait: the instance is woken, and all that it does not keep is given up. -/
structure Disarms (c : Cascade) (id : InstanceId) (w : Wait) (kept : Option Nat) (c' : Cascade) :
    Prop where
  wakes : ∃ c₁, c.Wakes id w c₁ ∧ Changes c₁ c' ∧ c₁.toSession.Survivors c'.toSession
  awake : c'.toSession.waitOf? id = none
  lost : ∀ n a, w.arms[n]? = some a → kept ≠ some n → a.IsLost c'.toSession
  disarmed : ∀ t, w.timer = some t → c'.timers.armed.get? t = none

/-- A cascade right after an instance has been woken, before anything is given up. -/
def awaken (c : Cascade) (i : Instance) (w : Wait) : Cascade :=
  { c with
    timers := c.timersWithout w.timer
    instances := c.instances.insert i.id { i with phase := .running } }

theorem wakes_awaken (hi : c.instances.get? i.id = some i) (hw : i.wait? = some w) :
    c.Wakes i.id w (c.awaken i w) :=
  .intro hi (Instance.wait?_eq_some.1 hw)

theorem disarm_eq (hi : c.instances.get? i.id = some i) (hw : i.wait? = some w)
    (kept : Option Nat) : c.disarm i kept = (c.awaken i w).giveUpAll kept 0 w.arms := by
  unfold disarm
  simp only [hw, change_eq hi]
  rfl

theorem owns_awaken (hs : c.toSession.Sound) (hi : c.instances.get? i.id = some i)
    (hw : i.wait? = some w) : Owns i.id w.arms (c.awaken i w) := by
  have hsw := hs.wait hi hw
  have wakes := wakes_awaken hi hw
  refine ⟨wakes.waitOf?_self.2, fun a ha => (hsw.issued a ha).later wakes.later, hsw.owned⟩

theorem disarms (hs : c.toSession.Sound) (hi : c.instances.get? id = some i)
    (hw : i.wait? = some w) (kept : Option Nat) : Disarms c id w kept (c.disarm i kept) := by
  obtain rfl := hs.id_eq hi
  have wakes := wakes_awaken hi hw
  have owns := owns_awaken hs hi hw
  obtain ⟨changes, sv, lost⟩ := giveUpAll_spec kept w.arms 0 (wakes.sound hs) owns
  rw [disarm_eq hi hw]
  refine ⟨⟨_, wakes, changes, sv⟩, (owns.changes changes fun _ h => h).awake,
    fun n a hn hne => ?_, fun t ht => ?_⟩
  · exact lost n a hn (by rwa [Nat.zero_add])
  · have out : (c.awaken i w).timers.armed.get? t = none := by
      simp [awaken, timersWithout, ht, Timers.cancel, Table.get?_erase]
    -- The timer was out at that time, and it does not come back.
    have issued : t.number ≤ (c.awaken i w).timers.issued :=
      Nat.le_trans ((hs.wait hi hw).timer t ht) wakes.later.timers.issued
    exact (Changes.later changes).timers.get?_eq_none issued out

theorem Disarms.sound {kept : Option Nat} (h : Disarms c id w kept c') (hs : c.toSession.Sound) :
    c'.toSession.Sound := by
  obtain ⟨c₁, wakes, changes, -⟩ := h.wakes
  exact Changes.sound changes (wakes.sound hs)

/-- The end of a wait is a moment, wherever the instance goes on. -/
theorem Disarms.happens {kept : Option Nat} (h : Disarms c id w kept c') (target : Option Nat) :
    (Moment.woken id w kept target c c').Happens Change c c' := by
  obtain ⟨c₁, wakes, changes, -⟩ := h.wakes
  exact .woken wakes changes h.lost h.disarmed

theorem Disarms.path {kept : Option Nat} (h : Disarms c id w kept c') (target : Option Nat) :
    Path Change c [.woken id w kept target c c'] c' :=
  .moment (h.happens target) (.nil c')

/-- A live instance that is not suspended is running. -/
theorem running_of_awake (hs : c.toSession.Sound) (hi : c.instances.get? id = some i)
    (hw : c.toSession.waitOf? id = none) : i.phase = .running := by
  have hwait : i.wait? = none := by simpa [Session.waitOf?, hi] using hw
  have live := (hs.instances id i hi).live
  unfold Instance.wait? at hwait
  cases hp : i.phase <;> simp_all [Phase.isLive]

/-- An instance that is not suspended may be moved elsewhere. -/
theorem goesOn_relocate (hs : c.toSession.Sound) (hw : c.toSession.waitOf? id = none) (pc : Nat)
    (bindings : Params) : GoesOn id c (c.relocate id pc bindings) := by
  cases hi : c.instances.get? id with
  | none =>
    have : c.relocate id pc bindings = c := by
      rw [relocate, change, Table.modify_eq_self hi]
    rw [this]
    exact ⟨.refl, hw, fun _ h => h⟩
  | some i =>
    have hr := running_of_awake hs hi hw
    rw [relocate, change_eq hi, ← hr]
    exact goesOn_insert hi hr fun k hk => Table.contains_foldl_insert _ (.inl hk)

theorem path_advance (hs : c.toSession.Sound) (hw : c.toSession.waitOf? id = none) (pc : Nat)
    (bindings : Params) :
    Path Change c (c.advanceHistory id pc bindings) (c.advance id pc bindings) := by
  rw [advance_eq]
  have changes := (goesOn_relocate hs hw pc bindings).changes
  exact (Path.of_changes changes).trans (path_activate (Changes.sound changes hs) id)

/-- What may come of a resolution, and its moments. -/
inductive Resumes (c : Cascade) (id : InstanceId) : Resolution → Cascade → List Moment → Prop
  /-- The instance is not suspended any more, so nothing comes of it. -/
  | stays {r : Resolution} (awake : c.toSession.waitOf? id = none) : Resumes c id r c []
  /-- The instance is ended while its wait is still armed. -/
  | ends {i : Instance} {w : Wait} {r : Resolution} {error : FlowError}
      (hi : c.instances.get? id = some i) (hw : i.wait? = some w) (early : r ≠ .timeout none)
      (failed : i.failure? r = some error) : Resumes c id r (c.terminate id error true) []
  /-- The wait has come to its end, and the instance goes on. -/
  | advances {i : Instance} {w : Wait} {r : Resolution} {pc : Nat} {bindings : Params}
      (hi : c.instances.get? id = some i) (hw : i.wait? = some w)
      (goes : r.target? = some (pc, bindings))
      (checked : checkBindings i.locals bindings i.isParameter = .ok ()) :
      Resumes c id r ((c.disarm i r.kept?).advance id pc bindings)
        (.woken id w r.kept? (some pc) c (c.disarm i r.kept?) ::
          (c.disarm i r.kept?).advanceHistory id pc bindings)
  /-- Time is up, and the instance cannot go on. -/
  | fails {i : Instance} {w : Wait} (hi : c.instances.get? id = some i) (hw : i.wait? = some w) :
      Resumes c id (.timeout none) ((c.disarm i none).terminate id .timeoutUnhandled true)
        [.woken id w none none c (c.disarm i none)]

theorem resumes (c : Cascade) (id : InstanceId) (r : Resolution) :
    Resumes c id r (c.resume id r) (c.resumeHistory id r) := by
  unfold resume resumeHistory
  -- By the time of its turn the instance may have ended, or may have been woken by another one.
  cases hi : c.instances.get? id with
  | none => exact .stays (by simp [Session.waitOf?, hi])
  | some i =>
    cases hw : i.wait? with
    | none =>
      simp only [Instance.isWaiting, hw, Option.isSome_none, Bool.not_false, if_true]
      exact .stays (by simp [Session.waitOf?, hi, hw])
    | some w =>
      simp only [Instance.isWaiting, hw, Option.isSome_some, Bool.not_true, Bool.false_eq_true,
        if_false]
      cases r with
      | arm index arm bindings =>
        dsimp only
        cases checked : checkBindings i.locals bindings i.isParameter with
        | error e => exact .ends hi hw (by simp) (by rw [Instance.failure?, checked])
        | ok _ => exact .advances (r := .arm index arm bindings) hi hw rfl checked
      | failure index arm reason =>
        dsimp only
        cases handled : arm.onFailure with
        | none => exact .ends hi hw (by simp) (by rw [Instance.failure?, handled])
        | some handler =>
          have goes : (Resolution.failure index arm reason).target? = some (handler, ∅) := by
            rw [Resolution.target?, handled]
            rfl
          exact .advances hi hw goes rfl
      | timeout handler =>
        cases handler with
        | none => exact .fails hi hw
        | some handler => exact .advances (r := .timeout (some handler)) hi hw rfl rfl

theorem Resumes.path {r : Resolution} {ms : List Moment} (h : Resumes c id r c' ms)
    (hs : c.toSession.Sound) : Path Change c ms c' := by
  cases h with
  | stays => exact .nil c
  | ends => exact .of_changes (changes_terminate hs id _ true)
  | @advances i w r pc bindings hi hw =>
    have d := disarms hs hi hw r.kept?
    exact .moment (d.happens (some pc)) (path_advance (d.sound hs) d.awake pc bindings)
  | fails hi hw =>
    have d := disarms hs hi hw none
    exact .moment (d.happens none) (.of_changes (changes_terminate (d.sound hs) id _ true))

theorem path_resume (hs : c.toSession.Sound) (id : InstanceId) (r : Resolution) :
    Path Change c (c.resumeHistory id r) (c.resume id r) :=
  (resumes c id r).path hs

/-! ## Deliveries -/

theorem path_foldl_resume (hs : c.toSession.Sound) (rs : List (InstanceId × Resolution)) :
    Path Change c
      (foldHistory (fun c r => c.resume r.1 r.2) (fun c r => c.resumeHistory r.1 r.2) c rs)
      (rs.foldl (fun c r => c.resume r.1 r.2) c) := by
  induction rs generalizing c with
  | nil => exact .nil c
  | cons r rest ih =>
    have first := path_resume hs r.1 r.2
    exact first.trans (ih (first.sound hs))

theorem changes_foldl_terminate (hs : c.toSession.Sound) (bs : List (InstanceId × FlowError)) :
    Changes c (bs.foldl (fun c b => c.terminate b.1 b.2 true) c) := by
  induction bs generalizing c with
  | nil => exact .refl
  | cons b rest ih =>
    have first := changes_terminate hs b.1 b.2 true
    exact first.trans (ih (Changes.sound first hs))

theorem survivors_foldl_terminate (hs : c.toSession.Sound)
    (bs : List (InstanceId × FlowError)) :
    c.toSession.Survivors (bs.foldl (fun c b => c.terminate b.1 b.2 true) c).toSession := by
  induction bs generalizing c with
  | nil => exact .refl _
  | cons b rest ih =>
    have hs₁ := Changes.sound (changes_terminate hs b.1 b.2 true) hs
    exact (survivors_terminate hs b.1 b.2 true).trans (ih hs₁)

theorem get?_foldl_terminate (hs : c.toSession.Sound) {bs : List (InstanceId × FlowError)}
    {b : InstanceId × FlowError} (h : b ∈ bs) :
    (bs.foldl (fun c b => c.terminate b.1 b.2 true) c).instances.get? b.1 = none := by
  induction bs generalizing c with
  | nil => cases h
  | cons b' rest ih =>
    have hs₁ := Changes.sound (changes_terminate hs b'.1 b'.2 true) hs
    rcases List.mem_cons.1 h with rfl | h
    · exact (survivors_foldl_terminate hs₁ rest).gone (get?_terminate_self hs b.1 b.2 true)
    · exact ih hs₁ h

theorem changes_purge (hs : c.toSession.Sound) (e : Event) : Changes c (c.purge e) :=
  changes_foldl_terminate hs _

theorem path_deliver (hs : c.toSession.Sound) (e : Event) :
    Path Change c (c.deliverHistory e) (c.deliver e) := by
  rw [deliver_eq]
  have purge := changes_purge hs e
  have resumed := path_foldl_resume (Changes.sound purge hs) (c.consumers e)
  exact .moment (.delivered e c) ((Path.of_changes purge).trans resumed)

/-! ## Launches -/

/-- The moments of the launch of a flow. -/
def launchHistory (c : Cascade) (flow : String) (args : Params) : List Moment :=
  match c.spawn flow args none false with
  | none => []
  | some (id, c) => c.activateHistory id

/-- The moments of the launches of several flows. -/
def launchAllHistory : List String → Cascade → List Moment
  | [], _ => []
  | flow :: rest, c =>
    c.launchHistory flow ∅ ++
      match c.launch flow ∅ with
      | none => []
      | some (_, c) => launchAllHistory rest c

theorem path_launch {flow : String} {args : Params} (hs : c.toSession.Sound)
    (h : c.launch flow args = some (id, c')) : Path Change c (c.launchHistory flow args) c' := by
  obtain ⟨⟨k, d⟩, hspawn, heq⟩ := Option.map_eq_some_iff.1 h
  obtain ⟨rfl, rfl⟩ := Prod.mk.inj heq
  rw [launchHistory, hspawn]
  exact .change (.begin hspawn fun p hp => by cases hp)
    (path_activate (sound_of_spawn hspawn hs) k)

theorem path_launchAll : ∀ {flows : List String} {c c' : Cascade}, c.toSession.Sound →
    launchAll flows c = .ok c' → Path Change c (launchAllHistory flows c) c'
  | [], c, c', _, h => by
    obtain rfl := Except.ok.inj h
    exact .nil c
  | flow :: rest, c, c', hs, h => by
    unfold launchAll at h
    rw [launchAllHistory]
    cases hl : c.launch flow ∅ with
    | none => rw [hl] at h; cases h
    | some p =>
      rw [hl] at h
      have first := path_launch hs hl
      exact first.trans (path_launchAll (first.sound hs) h)

end Cascade

end Dialogue
