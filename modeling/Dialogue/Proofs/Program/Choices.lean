import Dialogue.Proofs.Program.Faults
import Dialogue.Proofs.Program.Flattening

/-!
# What is checked about choices

A choice is well formed if it has branches and each of them begins by waiting for something. The
compiler looks at opened branches only. A choice that leads a branch of another one is gone by then,
and so may be what is wrong with it: without branches it takes its whole branch away, and an empty
branch of it begins with what follows the choice. Nothing else goes unnoticed, so in a flow that is
compiled all choices are well formed exactly if no branch leads with such a choice.

## Main definitions

* `Statement.leadsIn`, `Statement.IsFormed` — well-formed choices
* `Statement.front?`, `Statement.LeadsFilled` — the choice that leads a branch
* `Part.Accepted` — the code of a part is laid out

## Main results

* `Statement.formed_openBranches` — opened branches that are accepted come from well-formed choices
* `FlowDefinition.formed_iff_filled` — which malformed choices are compiled
-/

namespace Dialogue

namespace Statement

/-! ## Well-formed choices -/

mutual

/-- A statement that may lead a branch: it begins by waiting for an event, for a flow or for an
action. -/
def leads : Statement → Bool
  | expect _ | await .. | execute .. | alternative _ => true
  | sequence body => leadsIn body
  | send .. | start .. | loop _ | waitAny .. | branch .. | assign .. | abort _ => false

/-- The first statement of a body may lead a branch. -/
def leadsIn : List Statement → Bool
  | [] => false
  | s :: _ => leads s

end

/-- If a statement is a choice, it has branches, and each of them begins by waiting. -/
def IsFormed (s : Statement) : Prop :=
  ∀ bs, s.branches? = some bs → bs ≠ [] ∧ ∀ b ∈ bs, leadsIn b = true

/-- The branches of the choice that leads a branch, if it leads with one. -/
def front? : List Statement → Option (List (List Statement))
  | alternative inner :: _ => some inner
  | sequence body :: _ => front? body
  | _ => none

/-- If a branch leads with a choice, that choice has branches, and none of them is empty. -/
def Filled (b : List Statement) : Prop := ∀ inner, front? b = some inner → inner ≠ [] ∧ [] ∉ inner

/-- If a statement is a choice, the choices that lead its branches have branches, and none of those
is empty. -/
def LeadsFilled (s : Statement) : Prop := ∀ bs, s.branches? = some bs → ∀ b ∈ bs, Filled b

variable {flow : String} {s t : Statement} {b body rest : List Statement}
  {inner bs : List (List Statement)}

theorem isFormed_of_branches? (h : s.branches? = none) : s.IsFormed := by
  intro bs choice
  rw [h] at choice
  cases choice

theorem mem_allIn_of_front? : ∀ b, front? b = some inner → alternative inner ∈ allIn b
  | [], h => by simp [front?] at h
  | alternative inner' :: rest, h => by
    rw [front?] at h
    cases h
    exact List.mem_cons_self
  | sequence body :: rest, h => by
    rw [front?] at h
    rw [allIn, Statement.inner]
    exact List.mem_cons_of_mem _ (List.mem_append_left _ (mem_allIn_of_front? body h))
  | expect .. :: _, h | send .. :: _, h | start .. :: _, h | await .. :: _, h | loop .. :: _, h
  | waitAny .. :: _, h | branch .. :: _, h | assign .. :: _, h | execute .. :: _, h
  | abort .. :: _, h => by simp [front?] at h

theorem forall_mem_allIn {P : Statement → Prop} :
    (∀ t ∈ allIn body, P t) ↔ ∀ s ∈ body, P s ∧ ∀ t ∈ Statement.inner s, P t := by
  constructor
  · intro h s hs
    exact ⟨h s (mem_allIn_of_mem hs), fun t ht => h t (mem_allIn_of_inner hs ht)⟩
  · intro h t ht
    obtain ⟨s, hs, rfl | within⟩ := mem_allIn_iff.1 ht
    · exact (h _ hs).1
    · exact (h s hs).2 t within

/-- A choice that leads a branch is in the body of the choice that it leads. -/
theorem leadsFilled_of_isFormed (h : ∀ t ∈ allIn body, t.IsFormed) (hs : s ∈ allIn body) :
    s.LeadsFilled := by
  intro bs choice b hb inner front
  have inside : alternative inner ∈ allInBranches bs :=
    mem_allInBranches_iff.2 ⟨b, hb, mem_allIn_of_front? b front⟩
  have formed := h _ (inner_subset_allIn hs (mem_inner_of_branches? choice inside)) inner rfl
  refine ⟨formed.1, fun empty => ?_⟩
  have := formed.2 [] empty
  simp [leadsIn] at this

/-! ## Opened branches -/

theorem offer?_append_ne_none (h : offer? b ≠ none) (rest : List Statement) :
    offer? (b ++ rest) ≠ none := by
  have filled : b ≠ [] := by
    rintro rfl
    exact h rfl
  rw [offer?_append filled, ne_eq, Option.map_eq_none_iff]
  exact h

theorem offer?_of_append (filled : b ≠ []) (h : offer? (b ++ rest) ≠ none) : offer? b ≠ none := by
  rwa [offer?_append filled, ne_eq, Option.map_eq_none_iff] at h

mutual

/-- A branch of well-formed choices that leads is opened into branches that make offers. -/
theorem offers_openBranch : ∀ b, leadsIn b = true → (∀ t ∈ allIn b, t.IsFormed) →
    openBranch b ≠ [] ∧ ∀ o ∈ openBranch b, offer? o ≠ none
  | [], leads, _ => by simp [leadsIn] at leads
  | alternative inner :: rest, _, formed => by
    rw [allIn, Statement.inner, List.forall_mem_cons, List.forall_mem_append] at formed
    obtain ⟨branches, leads⟩ := formed.1 inner rfl
    obtain ⟨opens, offers⟩ := offers_openBranches inner leads formed.2.1
    simp only [openBranch, ne_eq, List.map_eq_nil_iff, List.forall_mem_map]
    exact ⟨opens branches, fun o ho => offer?_append_ne_none (offers o ho) rest⟩
  | sequence body :: rest, lead, formed => by
    rw [allIn, Statement.inner, List.forall_mem_cons, List.forall_mem_append] at formed
    rw [leadsIn, leads] at lead
    -- A body that leads is not empty, so it is opened.
    have filled : body.isEmpty = false := by cases body <;> simp_all [leadsIn]
    obtain ⟨opens, offers⟩ := offers_openBranch body lead formed.2.1
    simp only [openBranch, filled, Bool.false_eq_true, if_false, ne_eq, List.map_eq_nil_iff,
      List.forall_mem_map]
    exact ⟨opens, fun o ho => offer?_append_ne_none (offers o ho) rest⟩
  | expect .. :: _, _, _ | await .. :: _, _, _ | execute .. :: _, _, _ => by
    simp [openBranch, offer?]
  | send .. :: _, lead, _ | start .. :: _, lead, _ | loop .. :: _, lead, _
  | waitAny .. :: _, lead, _ | branch .. :: _, lead, _ | assign .. :: _, lead, _
  | abort .. :: _, lead, _ => by simp [leadsIn, leads] at lead

theorem offers_openBranches : ∀ bs, (∀ b ∈ bs, leadsIn b = true) →
    (∀ t ∈ allInBranches bs, t.IsFormed) →
      (bs ≠ [] → openBranches bs ≠ []) ∧ ∀ o ∈ openBranches bs, offer? o ≠ none
  | [], _, _ => by simp [openBranches]
  | b :: rest, lead, formed => by
    rw [List.forall_mem_cons] at lead
    rw [allInBranches, List.forall_mem_append] at formed
    obtain ⟨opens, offers⟩ := offers_openBranch b lead.1 formed.1
    rw [openBranches, List.forall_mem_append]
    exact ⟨fun _ => List.append_ne_nil_of_left_ne_nil opens _, offers,
      (offers_openBranches rest lead.2 formed.2).2⟩

end

/-- A branch that does not lead is opened into one that makes no offer, among others. -/
theorem exists_silent : ∀ b, leadsIn b = false →
    ∃ o ∈ openBranch b, offer? o = none ∧ (b ≠ [] → o ≠ [])
  | [], _ => by simp [openBranch, offer?]
  | sequence body :: rest, lead => by
    rw [leadsIn, leads] at lead
    rw [openBranch]
    split
    · exact ⟨_, List.mem_singleton_self _, rfl, fun _ => nofun⟩
    · next nonempty =>
      obtain ⟨o, ho, silent, filled⟩ := exists_silent body lead
      have filled := filled (by simpa using nonempty)
      refine ⟨o ++ rest, List.mem_map_of_mem ho, ?_, fun _ => by simp [filled]⟩
      rw [offer?_append filled, silent, Option.map_none]
  | expect .. :: _, lead | await .. :: _, lead | execute .. :: _, lead
  | alternative .. :: _, lead => by simp [leadsIn, leads] at lead
  | send .. :: _, _ | start .. :: _, _ | loop .. :: _, _ | waitAny .. :: _, _ | branch .. :: _, _
  | assign .. :: _, _ | abort .. :: _, _ => by simp [openBranch, offer?]

theorem mem_openBranches {o : List Statement} (hb : b ∈ bs) (ho : o ∈ openBranch b) :
    o ∈ openBranches bs := by
  induction bs with
  | nil => cases hb
  | cons b' rest ih =>
    rw [openBranches, List.mem_append]
    rcases List.mem_cons.1 hb with rfl | later
    · exact .inl ho
    · exact .inr (ih later)

mutual

/-- A branch that leads with no hollow choice is opened into branches that are not empty. -/
theorem filled_openBranch : ∀ b, b ≠ [] → Filled b → (∀ t ∈ allIn b, t.LeadsFilled) →
    openBranch b ≠ [] ∧ ∀ o ∈ openBranch b, o ≠ []
  | [], filled, _, _ => absurd rfl filled
  | alternative inner :: rest, _, front, within => by
    rw [allIn, Statement.inner, List.forall_mem_cons, List.forall_mem_append] at within
    obtain ⟨branches, filled⟩ := front inner (by rw [front?])
    obtain ⟨opens, inside⟩ := filled_openBranches inner
      (fun b hb => ⟨ne_of_mem_of_not_mem hb filled, within.1 inner rfl b hb⟩) within.2.1
    simp only [openBranch, ne_eq, List.map_eq_nil_iff, List.forall_mem_map]
    exact ⟨opens branches, fun o ho => List.append_ne_nil_of_left_ne_nil (inside o ho) rest⟩
  | sequence body :: rest, _, front, within => by
    rw [allIn, Statement.inner, List.forall_mem_cons, List.forall_mem_append] at within
    rw [openBranch]
    -- An empty body in front stays as it is, and is not empty as a branch.
    split
    · simp
    · next filled =>
      obtain ⟨opens, inside⟩ := filled_openBranch body (by simpa using filled)
        (fun inner h => front inner (by rwa [front?])) within.2.1
      simp only [ne_eq, List.map_eq_nil_iff, List.forall_mem_map]
      exact ⟨opens, fun o ho => List.append_ne_nil_of_left_ne_nil (inside o ho) rest⟩
  | expect .. :: _, _, _, _ | send .. :: _, _, _, _ | start .. :: _, _, _, _
  | await .. :: _, _, _, _ | loop .. :: _, _, _, _ | waitAny .. :: _, _, _, _
  | branch .. :: _, _, _, _ | assign .. :: _, _, _, _ | execute .. :: _, _, _, _
  | abort .. :: _, _, _, _ => by simp [openBranch]

theorem filled_openBranches : ∀ bs, (∀ b ∈ bs, b ≠ [] ∧ Filled b) →
    (∀ t ∈ allInBranches bs, t.LeadsFilled) →
      (bs ≠ [] → openBranches bs ≠ []) ∧ ∀ o ∈ openBranches bs, o ≠ []
  | [], _, _ => by simp [openBranches]
  | b :: rest, filled, within => by
    rw [List.forall_mem_cons] at filled
    rw [allInBranches, List.forall_mem_append] at within
    obtain ⟨opens, inside⟩ := filled_openBranch b filled.1.1 filled.1.2 within.1
    rw [openBranches, List.forall_mem_append]
    exact ⟨fun _ => List.append_ne_nil_of_left_ne_nil opens _, inside,
      (filled_openBranches rest filled.2 within.2).2⟩

end

end Statement

/-! ## Code that is laid out -/

/-- A code is laid out somewhere. -/
def Emit.Succeeds (e : Emit) : Prop := ∃ pc code, e pc = .ok code

/-- The code of a part is laid out, or if it leads a branch, what it does on failure. -/
structure Part.Accepted (p : Part) : Prop where
  code : p.lead = none → p.code.Succeeds
  onFailure : ∀ handler, p.onFailure = some handler → handler.Succeeds

section Code

variable {flow : String}

theorem Emit.Succeeds.of_all {codes : List Emit} (h : (all codes).Succeeds) :
    ∀ e ∈ codes, e.Succeeds := by
  induction codes with
  | nil => nofun
  | cons e rest ih =>
    obtain ⟨pc, code, hcode⟩ := h
    obtain ⟨first, others, hfirst, hothers, -⟩ := all_cons hcode
    exact List.forall_mem_cons.2 ⟨⟨pc, first, hfirst⟩, ih ⟨_, others, hothers⟩⟩

/-- When branches are laid out, each of them has a lead, and its parts are laid out with it. -/
theorem succeeds_of_layBranches {branches : List (List Part)} {pc : Nat} {s : Segments}
    (laid : layBranches flow pc branches = .ok s) : ∀ b ∈ branches,
      ∃ head tail, b = head :: tail ∧ head.lead ≠ none ∧
        (∀ handler, head.onFailure = some handler → handler.Succeeds) ∧
          ∀ p ∈ tail, p.code.Succeeds := by
  induction branches generalizing pc s with
  | nil => nofun
  | cons b branches ih =>
    obtain ⟨head, tail, lead, code, rfl, hlead, hcode, rest⟩ := layBranches_cons laid
    have behind : ∀ p ∈ tail, p.code.Succeeds := by
      simpa using Emit.Succeeds.of_all ⟨pc, code, hcode⟩
    rw [List.forall_mem_cons]
    rcases rest with ⟨none, s', hs', -⟩ | ⟨handler, failure, s', some, hfailure, hs', -⟩
    · exact ⟨⟨head, tail, rfl, by simp [hlead], by simp [none], behind⟩, ih hs'⟩
    · refine ⟨⟨head, tail, rfl, by simp [hlead], ?_, behind⟩, ih hs'⟩
      intro handler' same
      cases some.symm.trans same
      exact ⟨_, failure, hfailure⟩

theorem Emit.Succeeds.of_select {branches : List (List Part)} {timeout : Option Duration}
    {onTimeout : Emit} (h : (select flow branches timeout onTimeout).Succeeds) :
    branches ≠ [] ∧ (∀ b ∈ branches, ∃ head tail, b = head :: tail ∧ head.lead ≠ none ∧
      (∀ handler, head.onFailure = some handler → handler.Succeeds) ∧
        ∀ p ∈ tail, p.code.Succeeds) ∧ (timeout ≠ none → onTimeout.Succeeds) := by
  obtain ⟨pc, code, hcode⟩ := h
  obtain ⟨before, s, laid, first, -, -⟩ := select_eq_ok hcode
  refine ⟨?_, succeeds_of_layBranches laid, ?_⟩
  · rintro rfl
    cases hcode
  · intro limited
    rcases first with ⟨rfl, -⟩ | ⟨d, late, -, hlate, -⟩
    · exact absurd rfl limited
    · exact ⟨_, late, hlate⟩

theorem Emit.Succeeds.of_waitAny {branches : List (List Part)} {timeout : Option Float}
    {onTimeout : Option Emit} (h : (waitAny flow branches timeout onTimeout).Succeeds) :
    (∃ d, (select flow branches d (onTimeout.getD nothing)).Succeeds) ∧
      ∀ e, onTimeout = some e → e.Succeeds := by
  obtain ⟨pc, code, hcode⟩ := h
  have laid : (select flow branches _ _).Succeeds := ⟨pc, code, Program.select_of_waitAny hcode⟩
  refine ⟨⟨_, laid⟩, ?_⟩
  rintro e rfl
  cases timeout with
  | none =>
    obtain ⟨d, hd, hcode⟩ := bind_eq_ok.1 hcode
    cases hd
    cases hcode
  | some seconds =>
    obtain ⟨d, hd, -⟩ := bind_eq_ok.1 hcode
    apply laid.of_select.2.2
    rw [Option.bind_some, Program.ofSeconds?_of_checkTimeout hd]
    nofun

end Code

namespace Statement

variable {flow : String} {s t : Statement} {b body rest : List Statement}
  {inner bs : List (List Statement)}

theorem succeeds_of_body (h : (Emit.all ((parts flow body).map Part.code)).Succeeds) :
    ∀ s ∈ body, (part flow s).code.Succeeds := by
  have all := h.of_all
  rw [parts_eq_map] at all
  simpa using all

/-- What is laid out as a statement may also stand in an opened branch. -/
theorem accepted_of_succeeds (h : (part flow s).code.Succeeds) : (part flow s).Accepted := by
  have single {lead : Lead} {onFailure : Option Emit}
      (h : (Part.leading flow lead onFailure).code.Succeeds) :
      (Part.leading flow lead onFailure).Accepted := by
    refine ⟨fun bare => absurd bare (Option.some_ne_none lead), ?_⟩
    have laid : (Emit.select flow [[⟨some lead, onFailure, Emit.nothing⟩]] none
      Emit.nothing).Succeeds := h
    obtain ⟨head, tail, same, -, failure, -⟩ := laid.of_select.2.1 _ List.mem_cons_self
    cases same
    exact failure
  have simple {code : Emit} (h : code.Succeeds) : (Part.following code).Accepted :=
    ⟨fun _ => h, fun e handled => absurd handled (Option.some_ne_none e).symm⟩
  cases s with
  | expect | await | execute =>
    rw [part] at h ⊢
    exact single h
  | _ =>
    rw [part] at h ⊢
    exact simple h

/-- All statements of an opened branch that is accepted are accepted, and it makes an offer. -/
theorem accepted_of_select {timeout : Option Duration} {onTimeout : Emit}
    (h : (Emit.select flow (flatBranches flow bs) timeout onTimeout).Succeeds) :
    openBranches bs ≠ [] ∧
      ∀ o ∈ openBranches bs, offer? o ≠ none ∧ ∀ t ∈ o, (part flow t).Accepted := by
  obtain ⟨branches, laid, -⟩ := h.of_select
  rw [parts_openBranches, ne_eq, List.map_eq_nil_iff] at branches
  rw [parts_openBranches, List.forall_mem_map] at laid
  refine ⟨branches, fun o ho => ?_⟩
  obtain ⟨head, tail, same, lead, failure, behind⟩ := laid o ho
  cases o with
  | nil => simp [parts] at same
  | cons s rest =>
    obtain ⟨rfl, rfl⟩ : part flow s = head ∧ parts flow rest = tail := by simpa [parts] using same
    obtain ⟨l, hl⟩ := Option.ne_none_iff_exists'.1 lead
    obtain ⟨offer, hoffer, -⟩ := makes_offer same hl
    rw [List.forall_mem_cons]
    refine ⟨by simp [hoffer], ⟨fun none => absurd none lead, failure⟩, fun t ht => ?_⟩
    apply accepted_of_succeeds
    apply behind
    rw [parts_eq_map]
    exact List.mem_map_of_mem ht

/-! ## Choices that are compiled -/

/-- All choices in a statement are well formed, if it is accepted and no branch in it leads with a
hollow choice. -/
def Checks (flow : String) (s : Statement) : Prop :=
  (part flow s).Accepted → s.LeadsFilled → (∀ t ∈ Statement.inner s, t.LeadsFilled) →
    s.IsFormed ∧ ∀ t ∈ Statement.inner s, t.IsFormed

theorem formed_of_accepted (checks : ∀ s ∈ allIn body, s.Checks flow)
    (accepted : ∀ s ∈ body, (part flow s).Accepted) (filled : ∀ s ∈ allIn body, s.LeadsFilled) :
    ∀ s ∈ allIn body, s.IsFormed := by
  rw [forall_mem_allIn]
  intro s hs
  apply checks s (mem_allIn_of_mem hs) (accepted s hs) (filled s (mem_allIn_of_mem hs))
  exact fun t ht => filled t (mem_allIn_of_inner hs ht)

theorem formed_of_succeeds (checks : ∀ s ∈ allIn body, s.Checks flow)
    (laid : (Emit.all ((parts flow body).map Part.code)).Succeeds)
    (filled : ∀ s ∈ allIn body, s.LeadsFilled) : ∀ s ∈ allIn body, s.IsFormed :=
  formed_of_accepted checks (fun s hs => accepted_of_succeeds (succeeds_of_body laid s hs)) filled

/-- What is accepted with the rest of a branch behind it would be accepted without it. -/
theorem accepted_of_append {os : List (List Statement)} (filled : ∀ o ∈ os, o ≠ [])
    (accepted : ∀ o ∈ os, offer? (o ++ rest) ≠ none ∧ ∀ t ∈ o ++ rest, (part flow t).Accepted) :
    ∀ o ∈ os, offer? o ≠ none ∧ ∀ t ∈ o, (part flow t).Accepted := by
  intro o ho
  obtain ⟨offers, parts⟩ := accepted o ho
  exact ⟨offer?_of_append (filled o ho) offers, (List.forall_mem_append.1 parts).1⟩

/-- The rest of a branch is accepted if it stands behind something. -/
theorem accepted_behind {os : List (List Statement)} (opens : os ≠ [])
    (accepted : ∀ o ∈ os, offer? (o ++ rest) ≠ none ∧ ∀ t ∈ o ++ rest, (part flow t).Accepted) :
    ∀ t ∈ rest, (part flow t).Accepted := by
  obtain ⟨o, ho⟩ := List.exists_mem_of_ne_nil os opens
  exact (List.forall_mem_append.1 (accepted o ho).2).2

mutual

theorem formed_openBranch : ∀ b, Filled b → (∀ s ∈ allIn b, s.LeadsFilled) →
    (∀ s ∈ allIn b, s.Checks flow) →
    (∀ o ∈ openBranch b, offer? o ≠ none ∧ ∀ t ∈ o, (part flow t).Accepted) →
      leadsIn b = true ∧ ∀ s ∈ allIn b, s.IsFormed
  | [], _, _, _, accepted => by simp [openBranch, offer?] at accepted
  -- No branch of the inner choice is empty, so each of them has to make its offer by itself.
  | alternative inner :: rest, front, within, checks, accepted => by
    rw [allIn, Statement.inner, List.forall_mem_cons, List.forall_mem_append] at within checks
    obtain ⟨branches, filled⟩ := front inner (by rw [front?])
    have leads (b : List Statement) (hb : b ∈ inner) : b ≠ [] ∧ Filled b :=
      ⟨ne_of_mem_of_not_mem hb filled, within.1 inner rfl b hb⟩
    obtain ⟨opens, filled⟩ := filled_openBranches inner leads within.2.1
    rw [openBranch, List.forall_mem_map] at accepted
    obtain ⟨lead, formed⟩ := formed_openBranches inner (fun b hb => (leads b hb).2) within.2.1
      checks.2.1 (accepted_of_append filled accepted)
    have behind := formed_of_accepted checks.2.2 (accepted_behind (opens branches) accepted)
      within.2.2
    rw [allIn, Statement.inner, List.forall_mem_cons, List.forall_mem_append]
    refine ⟨rfl, ?_, formed, behind⟩
    rintro _ ⟨⟩
    exact ⟨branches, lead⟩
  | sequence body :: rest, front, within, checks, accepted => by
    rw [allIn, Statement.inner, List.forall_mem_cons, List.forall_mem_append] at within checks
    rw [openBranch] at accepted
    split at accepted
    · simp [offer?] at accepted
    · next nonempty =>
      have front : Filled body := fun inner h => front inner (by rwa [front?])
      obtain ⟨opens, filled⟩ := filled_openBranch body (by simpa using nonempty) front within.2.1
      rw [List.forall_mem_map] at accepted
      obtain ⟨lead, formed⟩ := formed_openBranch body front within.2.1 checks.2.1
        (accepted_of_append filled accepted)
      have behind := formed_of_accepted checks.2.2 (accepted_behind opens accepted) within.2.2
      rw [allIn, Statement.inner, List.forall_mem_cons, List.forall_mem_append, leadsIn, leads]
      exact ⟨lead, isFormed_of_branches? rfl, formed, behind⟩
  | expect .. :: _, _, within, checks, accepted | await .. :: _, _, within, checks, accepted
  | execute .. :: _, _, within, checks, accepted => by
    have accepted :=
      accepted _ (by rw [openBranch]; exact List.mem_singleton_self _; all_goals simp)
    exact ⟨rfl, formed_of_accepted checks accepted.2 within⟩
  | send .. :: _, _, _, _, accepted | start .. :: _, _, _, _, accepted
  | loop .. :: _, _, _, _, accepted | waitAny .. :: _, _, _, _, accepted
  | branch .. :: _, _, _, _, accepted | assign .. :: _, _, _, _, accepted
  | abort .. :: _, _, _, _, accepted => by simp [openBranch, offer?] at accepted

/-- Opened branches that are accepted come from branches that lead, with well-formed choices in
them, if no branch leads with a hollow choice. -/
theorem formed_openBranches : ∀ bs, (∀ b ∈ bs, Filled b) →
    (∀ s ∈ allInBranches bs, s.LeadsFilled) → (∀ s ∈ allInBranches bs, s.Checks flow) →
    (∀ o ∈ openBranches bs, offer? o ≠ none ∧ ∀ t ∈ o, (part flow t).Accepted) →
      (∀ b ∈ bs, leadsIn b = true) ∧ ∀ s ∈ allInBranches bs, s.IsFormed
  | [], _, _, _, _ => by simp [allInBranches]
  | b :: rest, front, within, checks, accepted => by
    rw [List.forall_mem_cons] at front ⊢
    rw [allInBranches, List.forall_mem_append] at within checks ⊢
    rw [openBranches, List.forall_mem_append] at accepted
    obtain ⟨lead, formed⟩ := formed_openBranch b front.1 within.1 checks.1 accepted.1
    obtain ⟨leads, others⟩ := formed_openBranches rest front.2 within.2 checks.2 accepted.2
    exact ⟨⟨lead, leads⟩, formed, others⟩

end

/-- A choice that is compiled is well formed, and so are the choices in its branches, if no branch
leads with a hollow choice. -/
theorem formed_of_select {timeout : Option Duration} {onTimeout : Emit}
    (laid : (Emit.select flow (flatBranches flow bs) timeout onTimeout).Succeeds)
    (front : ∀ b ∈ bs, Filled b) (within : ∀ s ∈ allInBranches bs, s.LeadsFilled)
    (checks : ∀ s ∈ allInBranches bs, s.Checks flow) :
    (bs ≠ [] ∧ ∀ b ∈ bs, leadsIn b = true) ∧ ∀ s ∈ allInBranches bs, s.IsFormed := by
  obtain ⟨opens, accepted⟩ := accepted_of_select laid
  obtain ⟨leads, formed⟩ := formed_openBranches bs front within checks accepted
  refine ⟨⟨?_, leads⟩, formed⟩
  rintro rfl
  exact opens (by rw [openBranches])

theorem checks (flow : String) (s : Statement) : s.Checks flow := by
  induction s using induct with
  | step s ih =>
    intro accepted front within
    -- What is done on failure is laid out behind the branch, so it is compiled like a body.
    have handler {onFailure : Option (List Statement)} (bodies : s.bodies = onFailure.toList)
        (failure : ∀ e, handlerCode flow onFailure = some e → e.Succeeds) :
        ∀ t ∈ Statement.inner s, t.IsFormed := by
      intro t ht
      obtain ⟨b, hb, inside⟩ := mem_inner_iff.1 ht
      rw [bodies, Option.mem_toList] at hb
      cases hb
      have sub (u : Statement) (hu : u ∈ allIn b) : u ∈ Statement.inner s :=
        mem_inner_iff.2 ⟨b, by simp [bodies], hu⟩
      apply formed_of_succeeds (fun u hu => ih u (sub u hu)) _ (fun u hu => within u (sub u hu)) t
        inside
      exact failure _ (by rw [handlerCode])
    cases s with
    | expect pattern => exact ⟨isFormed_of_branches? rfl, by simp [Statement.inner]⟩
    | send | start | assign | abort =>
      exact ⟨isFormed_of_branches? rfl, by simp [Statement.inner]⟩
    | await target args onFailure =>
      rw [part] at accepted
      exact ⟨isFormed_of_branches? rfl, handler rfl accepted.onFailure⟩
    | execute action params result onFailure =>
      rw [part] at accepted
      exact ⟨isFormed_of_branches? rfl, handler rfl accepted.onFailure⟩
    | sequence body =>
      rw [part] at accepted
      rw [Statement.inner] at ih within ⊢
      exact ⟨isFormed_of_branches? rfl, formed_of_succeeds ih (accepted.code rfl) within⟩
    | loop body =>
      rw [part] at accepted
      rw [Statement.inner] at ih within ⊢
      obtain ⟨pc, code, hcode⟩ := accepted.code rfl
      simp only [Part.following] at hcode
      split at hcode
      · obtain ⟨inside, hinside, -⟩ := bind_eq_ok.1 hcode
        exact ⟨isFormed_of_branches? rfl, formed_of_succeeds ih ⟨pc, inside, hinside⟩ within⟩
      · cases hcode
    | branch condition thenBody elseBody =>
      rw [part] at accepted
      rw [Statement.inner, List.forall_mem_append] at ih within ⊢
      obtain ⟨pc, code, hcode⟩ := accepted.code rfl
      obtain ⟨first, hfirst, hcode⟩ := bind_eq_ok.1 hcode
      refine ⟨isFormed_of_branches? rfl, formed_of_succeeds ih.1 ⟨_, first, hfirst⟩ within.1, ?_⟩
      cases elseBody with
      | nil => simp [allIn]
      | cons s rest =>
        obtain ⟨second, hsecond, -⟩ := bind_eq_ok.1 hcode
        exact formed_of_succeeds ih.2 ⟨_, second, hsecond⟩ within.2
    | alternative branches =>
      rw [part] at accepted
      rw [Statement.inner] at ih within ⊢
      have laid : (Emit.select flow (flatBranches flow branches) none Emit.nothing).Succeeds :=
        accepted.code rfl
      obtain ⟨formed, inside⟩ := formed_of_select laid (front branches rfl) within ih
      refine ⟨?_, inside⟩
      rintro _ ⟨⟩
      exact formed
    | waitAny branches timeout onTimeout =>
      rw [part] at accepted
      rw [Statement.inner, List.forall_mem_append] at ih within ⊢
      obtain ⟨⟨d, laid⟩, late⟩ := (accepted.code rfl).of_waitAny
      obtain ⟨formed, inside⟩ := formed_of_select laid (front branches rfl) within.1 ih.1
      refine ⟨?_, inside, ?_⟩
      · rintro _ ⟨⟩
        exact formed
      · cases onTimeout with
        | nil => simp [allIn]
        | cons s rest => exact formed_of_succeeds ih.2 (late _ rfl) within.2

/-- A choice that has no branches, or one that does not lead, is not compiled. -/
theorem not_succeeds_of_malformed {timeout : Option Duration} {onTimeout : Emit}
    (malformed : ¬ (bs ≠ [] ∧ ∀ b ∈ bs, leadsIn b = true)) :
    ¬ (Emit.select flow (flatBranches flow bs) timeout onTimeout).Succeeds := by
  intro laid
  obtain ⟨opens, accepted⟩ := accepted_of_select laid
  apply malformed
  constructor
  · rintro rfl
    exact opens (by rw [openBranches])
  · intro b hb
    by_contra silent
    obtain ⟨o, ho, silent, -⟩ := exists_silent b (by simpa using silent)
    exact (accepted o (mem_openBranches hb ho)).1 silent

end Statement

namespace FlowDefinition

variable {d : FlowDefinition}

theorem body_succeeds {p : Program} (compiled : d.compile = .ok p) :
    (Emit.all ((Statement.parts d.name d.body).map Part.code)).Succeeds := by
  obtain ⟨code, hcode, -⟩ := bind_eq_ok.1 compiled
  exact ⟨0, code, hcode⟩

/-- A flow that is refused for a choice has a malformed one. -/
theorem exists_malformed {flow : String} (h : d.compile = .error (.nonBlockingLead flow) ∨
    d.compile = .error (.invalid flow .noBranches)) :
    ∃ s ∈ Statement.allIn d.body, ¬ s.IsFormed := by
  by_contra! formed
  -- All branches of well-formed choices make offers, so neither of the two faults is there.
  have offers {s : Statement} {bs : List (List Statement)} (hs : s ∈ Statement.allIn d.body)
      (choice : s.branches? = some bs) : Statement.openBranches bs ≠ [] ∧
        ∀ o ∈ Statement.openBranches bs, Statement.offer? o ≠ none := by
    obtain ⟨branches, leads⟩ := formed s hs bs choice
    have opened := Statement.offers_openBranches bs leads fun t ht =>
      formed t (Statement.inner_subset_allIn hs (Statement.mem_inner_of_branches? choice ht))
    exact ⟨opened.1 branches, opened.2⟩
  rcases h with refused | refused
  · obtain ⟨s, hs, fault⟩ := exists_fault refused
    cases fault with
    | lead choice opened silent => exact (offers hs choice).2 _ opened silent
    | timeout wrong => simpa using error_of_checkTimeout wrong
  · obtain ⟨s, hs, fault⟩ := exists_fault refused
    cases fault with
    | noBranches choice none => exact (offers hs choice).1 none
    | timeout wrong => simpa using error_of_checkTimeout wrong

/-- A malformed choice that is a statement of the body is not compiled. -/
theorem not_compile_of_malformed {s : Statement} (hs : s ∈ d.body) (malformed : ¬ s.IsFormed)
    (p : Program) : d.compile ≠ .ok p := by
  intro compiled
  have laid := Statement.succeeds_of_body (body_succeeds compiled) s hs
  apply malformed
  intro bs choice
  by_contra wrong
  cases s with
  | alternative branches =>
    cases choice
    rw [Statement.part] at laid
    have laid : (Emit.select d.name (Statement.flatBranches d.name bs) none
      Emit.nothing).Succeeds := laid
    exact Statement.not_succeeds_of_malformed wrong laid
  | waitAny branches timeout onTimeout =>
    cases choice
    rw [Statement.part] at laid
    obtain ⟨⟨d, laid⟩, -⟩ := Emit.Succeeds.of_waitAny laid
    exact Statement.not_succeeds_of_malformed wrong laid
  | _ => cases choice

/-- **Validation of choices.** In a flow that is compiled, all choices are well formed exactly if no
branch leads with a choice that has no branches or an empty one. A flow is refused for a choice only
if it has a malformed one, and always if that is a statement of its body. -/
theorem formed_iff_filled (d : FlowDefinition) :
    (∀ p, d.compile = .ok p → ((∀ s ∈ Statement.allIn d.body, s.IsFormed) ↔
      ∀ s ∈ Statement.allIn d.body, s.LeadsFilled)) ∧
    (∀ flow, d.compile = .error (.nonBlockingLead flow) ∨
      d.compile = .error (.invalid flow .noBranches) →
        ∃ s ∈ Statement.allIn d.body, ¬ s.IsFormed) ∧
    ∀ s ∈ d.body, ¬ s.IsFormed → ∀ p, d.compile ≠ .ok p := by
  refine ⟨fun p compiled => ⟨fun formed s hs => ?_, ?_⟩, fun flow => exists_malformed, ?_⟩
  · exact Statement.leadsFilled_of_isFormed formed hs
  · exact Statement.formed_of_succeeds (fun s _ => s.checks d.name) (body_succeeds compiled)
  · exact fun s hs malformed => not_compile_of_malformed hs malformed

/-- A choice that leads with a choice without branches, and with one that has an empty branch. -/
def hollow : FlowDefinition where
  name := "hollow"
  parameters := []
  description := ""
  body := [.alternative [[.alternative []],
    [.alternative [[]], .expect ⟨"UserSaid", ∅, ∅, false⟩]]]

/-- Its two malformed choices go unnoticed, although each of them is refused by itself. -/
theorem malformed_compiled : (∃ p, hollow.compile = .ok p) ∧
    (∀ s ∈ [Statement.alternative [], Statement.alternative [[]]],
      s ∈ Statement.allIn hollow.body ∧ ¬ s.IsFormed) ∧
    { hollow with body := [.alternative []] }.compile = .error (.invalid "hollow" .noBranches) ∧
    { hollow with body := [.alternative [[]]] }.compile = .error (.nonBlockingLead "hollow") := by
  refine ⟨⟨_, rfl⟩, ?_, rfl, rfl⟩
  simp [hollow, Statement.allIn, Statement.inner, Statement.allInBranches, Statement.IsFormed,
    Statement.branches?, Statement.leadsIn]

theorem formed_iff_filled_nested : (∃ p, Program.nested.compile = .ok p ∧
    ((∀ s ∈ Statement.allIn Program.nested.body, s.IsFormed) ↔
      ∀ s ∈ Statement.allIn Program.nested.body, s.LeadsFilled)) ∧
    ∃ s ∈ Statement.allIn [Statement.alternative []], ¬ s.IsFormed :=
  ⟨⟨_, rfl, Program.nested.formed_iff_filled.1 _ rfl⟩,
    { hollow with body := [.alternative []] }.formed_iff_filled.2.1 _ (.inr rfl)⟩

end FlowDefinition

end Dialogue
