import Dialogue.Proofs.Session.History

/-!
# What lasts through a delivery

Some things hold of an instance as long as nothing that it waits for comes to its end. They hold of
every instance that does not wait, and no change takes them away. What may take them away is the
event that is delivered, since it is on its way no longer. They still hold after the delivery if
the event made the instance go on or end.

## Main definitions

* `Cascade.Lasts` — what holds of an instance that does not wait and is kept by every change

## Main results

* `Cascade.Lasts.deliver` — it holds after a delivery of every instance that was concerned
-/

namespace Dialogue.Cascade

/-- A property that an instance has while it does not wait, and that no change takes away, as long
as an invariant holds. -/
structure Lasts (id : InstanceId) (Inv P : Cascade → Prop) : Prop where
  sound : ∀ c, Inv c → c.toSession.Sound
  path : ∀ c ms c', Path Change c ms c' → Inv c → Inv c' ∧ (P c → P c')
  awake : ∀ c, Inv c → c.toSession.waitOf? id = none → P c

variable {id k : InstanceId} {Inv P : Cascade → Prop} {c c' : Cascade} {ms : List Moment}

theorem Lasts.resumes (h : Lasts id Inv P) (hc : Inv c) {r : Resolution}
    (resumes : Resumes c k r c' ms) (hp : k = id ∨ P c) : Inv c' ∧ P c' := by
  have path := resumes.path (h.sound c hc)
  have lasting := h.path c ms c' path hc
  refine ⟨lasting.1, ?_⟩
  rcases hp with rfl | hp
  · have hs := h.sound c hc
    -- Once the wait of the instance has come to its end, nothing can be missing.
    have woken : ∀ {w kept c₂}, Disarms c k w kept c₂ → c₂.toSession.Sound ∧ Inv c₂ ∧ P c₂ := by
      intro w kept c₂ d
      have invariant := (h.path c _ c₂ (d.path none) hc).1
      exact ⟨d.sound hs, invariant, h.awake c₂ invariant d.awake⟩
    cases resumes with
    | stays awake => exact h.awake c hc awake
    | ends =>
      refine h.awake _ lasting.1 ?_
      rw [Session.waitOf?, get?_terminate_self hs]
      rfl
    | advances hi hw =>
      have d := disarms hs hi hw r.kept?
      obtain ⟨hs₂, hc₂, hp₂⟩ := woken d
      exact (h.path _ _ _ (path_advance hs₂ d.awake _ _) hc₂).2 hp₂
    | fails hi hw =>
      obtain ⟨hs₂, hc₂, hp₂⟩ := woken (disarms hs hi hw none)
      exact (h.path _ _ _ (.of_changes (changes_terminate hs₂ k _ true)) hc₂).2 hp₂
  · exact lasting.2 hp

theorem Lasts.foldl_resume (h : Lasts id Inv P) {rs : List (InstanceId × Resolution)} (hc : Inv c)
    (hp : (∃ r ∈ rs, r.1 = id) ∨ P c) : P (rs.foldl (fun c r => c.resume r.1 r.2) c) := by
  induction rs generalizing c with
  | nil => exact hp.resolve_left (by simp)
  | cons r rest ih =>
    have first := fun hp => h.resumes hc (Cascade.resumes c r.1 r.2) hp
    have invariant := (h.path _ _ _ (path_resume (h.sound c hc) r.1 r.2) hc).1
    refine ih invariant ?_
    rcases hp with ⟨r', hr', rfl⟩ | hp
    · rcases List.mem_cons.1 hr' with rfl | hr'
      · exact .inr (first (.inl rfl)).2
      · exact .inl ⟨r', hr', rfl⟩
    · exact .inr (first (.inr hp)).2

/-- A property lasts through a delivery if the instance fails at it or takes the event, or if it
lasts without the event. -/
theorem Lasts.deliver (h : Lasts id Inv P) (hc : Inv c) (e : Event)
    (hp : (∃ b ∈ c.broken e, b.1 = id) ∨ (∃ r ∈ c.consumers e, r.1 = id) ∨ P c) :
    P (c.deliver e) := by
  have hs := h.sound c hc
  have purged := h.path _ _ _ (.of_changes (changes_purge hs e)) hc
  rw [deliver_eq]
  refine h.foldl_resume purged.1 ?_
  rcases hp with ⟨b, hb, rfl⟩ | hr | hp
  -- An instance with a broken pattern has ended by then.
  · refine .inr (h.awake _ purged.1 ?_)
    rw [Session.waitOf?, purge, get?_foldl_terminate hs hb]
    rfl
  · exact .inl hr
  · exact .inr (purged.2 hp)

end Dialogue.Cascade
