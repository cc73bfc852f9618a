import Dialogue.Proofs.Program.Trace
import Dialogue.Proofs.Variables
import Mathlib.Data.List.Forall2

/-!
# Programs do what statements do

The code of a body lies where it was compiled to begin, and behind it lies, perhaps some jumps
away, what is left to do after the body. This relation between a place in the program and the
statements that are left to do is kept by every move, and the moves on both sides show the same.

A flow cannot make moves without end that need no reply: a loop is compiled only if its body
cannot be run through without waiting or stopping.

## Main definitions

* `Program.Holds` — what lies at a place of a program
* `Program.Continues` — which statements are left to do at a place
* `Statement.distanceIn` — how far a body is from its next question

## Main results

* `Statement.parts_openBranches` — flattened branches are opened branches
* `Program.trace_compile` — a compiled flow shows what its statements show
-/

namespace Dialogue

/-! ## Opened branches -/

namespace Statement

variable {flow : String}

theorem parts_append (a b : List Statement) :
    parts flow (a ++ b) = parts flow a ++ parts flow b := by
  induction a with
  | nil => simp [parts]
  | cons s rest ih => simp [parts, ih]

theorem parts_map_append (bs : List (List Statement)) (rest : List Statement) :
    (bs.map (· ++ rest)).map (parts flow) = (bs.map (parts flow)).map (· ++ parts flow rest) := by
  simp [parts_append]

mutual

theorem parts_openBranch : ∀ b : List Statement,
    flatBranch flow b = (openBranch b).map (parts flow)
  | [] => by simp [flatBranch, openBranch, parts]
  | alternative inner :: rest => by
    rw [flatBranch, openBranch, parts_map_append, parts_openBranches inner]
  | sequence body :: rest => by
    rw [flatBranch, openBranch]
    split
    · simp [parts]
    · rw [parts_map_append, parts_openBranch body]
  | expect .. :: _ | send .. :: _ | start .. :: _ | await .. :: _ | loop .. :: _
  | waitAny .. :: _ | branch .. :: _ | assign .. :: _ | execute .. :: _ | abort .. :: _ => by
    simp [flatBranch, openBranch, parts]

/-- The flattened branches of a choice are its opened branches. -/
theorem parts_openBranches : ∀ bs : List (List Statement),
    flatBranches flow bs = (openBranches bs).map (parts flow)
  | [] => by simp [flatBranches, openBranches]
  | b :: rest => by
    rw [flatBranches, openBranches, List.map_append, parts_openBranch b, parts_openBranches rest]

end

end Statement

/-! ## Code at a place -/

namespace Program

/-- A piece of code lies at a place. -/
def Holds (p : Program) (pc : Nat) (code : List Instr) : Prop :=
  ∀ j i, code[j]? = some i → p.get? (pc + j) = some i

variable {p : Program} {pc stop : Nat}

theorem holds_cons {i : Instr} {code : List Instr} :
    p.Holds pc (i :: code) ↔ p.get? pc = some i ∧ p.Holds (pc + 1) code := by
  constructor
  · intro h
    refine ⟨h 0 i rfl, fun j i' hj => ?_⟩
    rw [Nat.add_assoc, Nat.add_comm 1 j]
    exact h (j + 1) i' hj
  · rintro ⟨hi, h⟩ j i' hj
    cases j with
    | zero =>
      obtain rfl : i = i' := by simpa using hj
      exact hi
    | succ j =>
      rw [Nat.add_comm j 1, ← Nat.add_assoc]
      exact h j i' hj

theorem holds_append {a b : List Instr} :
    p.Holds pc (a ++ b) ↔ p.Holds pc a ∧ p.Holds (pc + a.length) b := by
  induction a generalizing pc with
  | nil => simp [Holds]
  | cons i a ih =>
    rw [List.cons_append, holds_cons, holds_cons, ih, and_assoc, List.length_cons,
      Nat.add_assoc, Nat.add_comm 1]

/-- Segments lie one behind the other from a place on. Behind each one is the end, or a jump to
it. -/
inductive Segmented (p : Program) (stop : Nat) : Nat → List (List Instr) → Prop
  | nil {pc : Nat} : Segmented p stop pc []
  | cons {pc : Nat} {code codes} (holds : p.Holds pc code)
    (exit : pc + code.length = stop ∨ p.get? (pc + code.length) = some (.jump stop))
    (rest : Segmented p stop (pc + code.length + 1) codes) : Segmented p stop pc (code :: codes)

/-- The segments of a choice lie where they were laid out, although the last of them has no jump
behind it. -/
theorem segmented_of_holds {codes : List (List Instr)} (h : p.Holds pc (joinSegments stop codes))
    (room : pc + extent codes = stop + 1) : Segmented p stop pc codes := by
  induction codes generalizing pc with
  | nil => exact .nil
  | cons code rest ih =>
    -- Behind the last segment the layout ends, and behind each of the others lies a jump to the
    -- end.
    cases rest with
    | nil =>
      simp only [joinSegments, extent] at h room
      exact .cons h (.inl (by omega)) .nil
    | cons next rest =>
      rw [joinSegments.eq_3 _ _ _ (by simp), holds_append, holds_cons] at h
      rw [extent] at room
      exact .cons h.1 (.inr h.2.1) (ih h.2.2 (by omega))

theorem length_joinSegments (stop : Nat) {codes : List (List Instr)} (h : codes ≠ []) :
    (joinSegments stop codes).length + 1 = extent codes := by
  induction codes with
  | nil => exact absurd rfl h
  | cons code rest ih =>
    -- A jump is counted for every segment, but the last one has none.
    cases rest with
    | nil => simp [joinSegments, extent]
    | cons next rest =>
      have := ih (by simp)
      simp only [joinSegments, extent, List.length_append, List.length_cons] at this ⊢
      omega

/-! ## What is left to do -/

/-- The statements that are left to do when a program is at a place. Jumps are on the way to what
they lead to. -/
inductive Continues (p : Program) (flow : String) : Nat → List Statement → Prop
  | finish {pc : Nat} (here : p.get? pc = some .finish) : Continues p flow pc []
  | jump {pc target : Nat} {rest} (here : p.get? pc = some (.jump target))
    (there : Continues p flow target rest) : Continues p flow pc rest
  | statement {pc : Nat} {s code rest} (compiled : (s.part flow).code pc = .ok code)
    (here : p.Holds pc code) (behind : Continues p flow (pc + code.length) rest) :
    Continues p flow pc (s :: rest)

end Program

namespace Emit

theorem all_cons {a : Emit} {l : List Emit} {pc : Nat} {code : List Instr}
    (h : all (a :: l) pc = .ok code) : ∃ first rest, a pc = .ok first ∧
      all l (pc + first.length) = .ok rest ∧ code = first ++ rest := by
  change andThen a (all l) pc = .ok code at h
  rw [andThen, bind_eq_ok] at h
  obtain ⟨first, hfirst, h⟩ := h
  obtain ⟨rest, hrest, h⟩ := bind_eq_ok.mp h
  exact ⟨first, rest, hfirst, hrest, (Except.ok.inj h).symm⟩

theorem nothing_eq (flow : String) : nothing = Statement.code flow [] := by
  rw [Statement.code, Statement.parts]
  rfl

end Emit

namespace Program

variable {p : Program} {flow : String} {pc stop : Nat} {rest : List Statement}

/-- The code of a body that lies in front of what is left to do. -/
theorem Continues.append {body : List Statement} {code : List Instr}
    (compiled : Statement.code flow body pc = .ok code) (here : p.Holds pc code)
    (behind : p.Continues flow (pc + code.length) rest) : p.Continues flow pc (body ++ rest) := by
  -- Each statement lies in front of what is left of the body.
  induction body generalizing pc code with
  | nil =>
    obtain rfl : [] = code := by
      simpa [Statement.code, Statement.parts, Emit.all, Emit.nothing] using compiled
    simpa using behind
  | cons s body ih =>
    rw [Statement.code, Statement.parts, List.map_cons] at compiled
    obtain ⟨first, others, hs, ho, rfl⟩ := Emit.all_cons compiled
    rw [holds_append] at here
    refine .statement hs here.1 (ih ho here.2 ?_)
    simpa [Nat.add_assoc] using behind

end Program

/-! ## Choices -/

section Choice

variable {flow : String} {p : Program} {pc stop : Nat} {rest : List Statement}

/-- A flattened branch leads with what an offer waits for, and goes on with the code of what the
offer goes on with. -/
def Part.Makes (flow : String) (branch : List Part) (o : Statement.Offer) : Prop :=
  ∃ head, branch = head :: Statement.parts flow o.tail ∧ head.lead = some o.lead ∧
    head.onFailure = o.onFailure.map (Statement.code flow)

theorem Statement.handlerCode_eq (h : Option (List Statement)) :
    Statement.handlerCode flow h = h.map (Statement.code flow) := by
  cases h <;> simp [Statement.handlerCode, Statement.code]

/-- A branch that leads with something to wait for makes an offer. -/
theorem Statement.makes_offer {b : List Statement} {head : Part} {tail : List Part} {lead : Lead}
    (parts : Statement.parts flow b = head :: tail) (leads : head.lead = some lead) :
    ∃ o, Statement.offer? b = some o ∧ Part.Makes flow (Statement.parts flow b) o := by
  cases b with
  | nil => simp [Statement.parts] at parts
  | cons s b =>
    obtain ⟨rfl, rfl⟩ : Statement.part flow s = head ∧ Statement.parts flow b = tail := by
      simpa [Statement.parts] using parts
    -- Three kinds of statements have something to wait for.
    cases s with
    | expect pattern =>
      exact ⟨_, rfl, _, by rw [Statement.parts], by simp [Statement.part, Part.leading]⟩
    | await target args onFailure =>
      exact ⟨_, rfl, _, by rw [Statement.parts],
        by simp [Statement.part, Part.leading, Statement.handlerCode_eq]⟩
    | execute action params result onFailure =>
      exact ⟨_, rfl, _, by rw [Statement.parts],
        by simp [Statement.part, Part.leading, Statement.handlerCode_eq]⟩
    | _ => simp [Statement.part, Part.following] at leads

/-- What becomes of the first branch when the branches of a choice are laid out. -/
theorem layBranches_cons {branch : List Part} {branches : List (List Part)} {s : Segments}
    (h : layBranches flow pc (branch :: branches) = .ok s) :
    ∃ head tail lead code, branch = head :: tail ∧ head.lead = some lead ∧
      Emit.all (tail.map Part.code) pc = .ok code ∧
      ((head.onFailure = none ∧ ∃ s', layBranches flow (pc + code.length + 1) branches = .ok s' ∧
          s = ⟨⟨lead, pc, none⟩ :: s'.arms, code :: s'.codes⟩) ∨
        ∃ handler failure s', head.onFailure = some handler ∧
          handler (pc + code.length + 1) = .ok failure ∧
          layBranches flow (pc + code.length + 1 + failure.length + 1) branches = .ok s' ∧
          s = ⟨⟨lead, pc, some (pc + code.length + 1)⟩ :: s'.arms,
            code :: failure :: s'.codes⟩) := by
  cases branch with
  | nil => simp [layBranches] at h
  | cons head tail =>
    simp only [layBranches] at h
    cases hl : head.lead with
    | none => simp [hl] at h
    | some lead =>
      rw [hl] at h
      obtain ⟨code, hcode, h⟩ := bind_eq_ok.mp h
      refine ⟨head, tail, lead, code, rfl, hl, hcode, ?_⟩
      -- What is done on failure is laid out behind the branch, as a segment of its own.
      cases hf : head.onFailure with
      | none =>
        rw [hf] at h
        obtain ⟨s', hs', h⟩ := bind_eq_ok.mp h
        exact .inl ⟨rfl, s', hs', (Except.ok.inj h).symm⟩
      | some handler =>
        rw [hf] at h
        obtain ⟨failure, hfailure, h⟩ := bind_eq_ok.mp h
        obtain ⟨s', hs', h⟩ := bind_eq_ok.mp h
        exact .inr ⟨handler, failure, s', rfl, hfailure, hs', (Except.ok.inj h).symm⟩

/-- When branches can be laid out, each of them makes an offer. -/
theorem Statement.forall₂_makes {bs : List (List Statement)} {s : Segments}
    (h : layBranches flow pc (bs.map (Statement.parts flow)) = .ok s) :
    List.Forall₂ (Part.Makes flow) (bs.map (Statement.parts flow)) (bs.filterMap offer?) := by
  induction bs generalizing pc s with
  | nil => exact .nil
  | cons b bs ih =>
    rw [List.map_cons] at h
    obtain ⟨head, tail, lead, code, hb, hl, -, hrest⟩ := layBranches_cons h
    obtain ⟨o, ho, hmakes⟩ := makes_offer hb hl
    rw [List.map_cons, List.filterMap_cons_some ho]
    -- What a branch offers does not depend on where it is laid out.
    obtain ⟨-, s', hs', -⟩ | ⟨_, _, s', _, _, hs', _⟩ := hrest
    · exact .cons hmakes (ih hs')
    · exact .cons hmakes (ih hs')

/-- An arm waits for what an offer waits for, and leads to where the offer goes on. -/
structure Program.Serves (p : Program) (flow : String) (rest : List Statement)
    (o : Statement.Offer) (arm : Arm) : Prop where
  lead : arm.lead = o.lead
  resume : p.Continues flow arm.resume (o.tail ++ rest)
  onFailure : Option.Rel (p.Continues flow) arm.onFailure (o.onFailure.map (· ++ rest))

/-- Behind a segment of a choice lies what lies behind the choice. -/
theorem Program.continues_exit (behind : p.Continues flow stop rest)
    (exit : pc = stop ∨ p.get? pc = some (.jump stop)) : p.Continues flow pc rest := by
  rcases exit with rfl | jump
  · exact behind
  · exact .jump jump behind

/-- The arms of a choice serve its offers, one by one. -/
theorem Program.serves_arms {branches : List (List Part)} {os : List Statement.Offer} {s : Segments}
    (makes : List.Forall₂ (Part.Makes flow) branches os)
    (laid : layBranches flow pc branches = .ok s) (here : p.Segmented stop pc s.codes)
    (behind : p.Continues flow stop rest) :
    List.Forall₂ (p.Serves flow rest) os s.arms := by
  induction makes generalizing pc s with
  | nil =>
    obtain rfl : ⟨[], []⟩ = s := by simpa [layBranches] using laid
    exact .nil
  | cons made _ ih =>
    obtain ⟨head, hb, hlead, hfailure⟩ := made
    obtain ⟨head', tail, lead, code, hb', hlead', hcode, hrest⟩ := layBranches_cons laid
    -- The layout and the offer are about the same branch.
    obtain ⟨rfl, rfl⟩ : head = head' ∧ _ = tail := by simpa [hb] using hb'
    obtain rfl : _ = lead := Option.some.inj (hlead.symm.trans hlead')
    obtain ⟨hnone, s', hs', rfl⟩ | ⟨handler, failure, s', hsome, hcode', hs', rfl⟩ := hrest
    · cases here with
      | cons holds exit others =>
        refine .cons ⟨rfl, .append hcode holds (continues_exit behind exit), ?_⟩ (ih hs' others)
        rw [hnone] at hfailure
        rw [Option.map_eq_none_iff.mp hfailure.symm]
        exact .none
    · cases here with
      | cons holds exit others =>
        -- There are two segments, and both of them end where the choice ends.
        cases others with
        | cons holds' exit' others =>
          refine .cons ⟨rfl, .append hcode holds (continues_exit behind exit), ?_⟩ (ih hs' others)
          rw [hsome] at hfailure
          obtain ⟨body, hbody, rfl⟩ := Option.map_eq_some_iff.mp hfailure.symm
          rw [hbody]
          exact .some (.append hcode' holds' (continues_exit behind exit'))

theorem codes_ne_nil {branches : List (List Part)} {s : Segments}
    (laid : layBranches flow pc branches = .ok s) (h : branches ≠ []) : s.codes ≠ [] := by
  cases branches with
  | nil => exact absurd rfl h
  | cons b bs =>
    obtain ⟨_, _, _, _, _, _, _, ⟨_, _, _, rfl⟩ | ⟨_, _, _, _, _, _, rfl⟩⟩ := layBranches_cons laid
    · simp
    · simp

/-- A place of a program waits for what a choice offers, for as long, and leads to where the choice
goes on. -/
structure Program.Awaits (p : Program) (flow : String) (pc : Nat) (os : List Statement.Offer)
    (timeout : Option Duration) (onTimeout rest : List Statement) (s : Select) : Prop where
  here : p.get? pc = some (.select s)
  arms : List.Forall₂ (p.Serves flow rest) os s.arms
  limit : s.timeout = timeout
  onTimeout : Option.Rel (p.Continues flow) s.onTimeout (timeout.map fun _ => onTimeout ++ rest)

/-- What the code of a choice consists of. -/
theorem select_eq_ok {branches : List (List Part)} {timeout : Option Duration} {onTimeout : Emit}
    {code : List Instr} (h : Emit.select flow branches timeout onTimeout pc = .ok code) :
    ∃ before s, layBranches flow (pc + 1 + extent before) branches = .ok s ∧
      (timeout = none ∧ before = [] ∨
        ∃ d late, timeout = some d ∧ onTimeout (pc + 1) = .ok late ∧ before = [late]) ∧
      before ++ s.codes ≠ [] ∧
      code = .select ⟨s.arms, timeout, timeout.map fun _ => pc + 1⟩ ::
        joinSegments (pc + extent (before ++ s.codes)) (before ++ s.codes) := by
  rw [Emit.select] at h
  split at h
  · simp at h
  next hempty =>
  have hbranches : branches ≠ [] := by simpa using hempty
  -- What is done when time is up is laid out in front of all branches.
  cases timeout with
  | none =>
    obtain ⟨before, hbefore, h⟩ := bind_eq_ok.mp h
    obtain rfl : [] = before := Except.ok.inj hbefore
    obtain ⟨s, hs, h⟩ := bind_eq_ok.mp h
    exact ⟨[], s, hs, .inl ⟨rfl, rfl⟩, by simpa using codes_ne_nil hs hbranches,
      (Except.ok.inj h).symm⟩
  | some d =>
    obtain ⟨late, hlate, h⟩ := bind_eq_ok.mp h
    obtain ⟨before, hbefore, h⟩ := bind_eq_ok.mp h
    obtain rfl : [late] = before := Except.ok.inj hbefore
    obtain ⟨s, hs, h⟩ := bind_eq_ok.mp h
    exact ⟨[late], s, hs, .inr ⟨d, late, rfl, hlate, rfl⟩, by simp, (Except.ok.inj h).symm⟩

/-- The code of a choice between branches that make offers. -/
theorem Program.awaits_of_holds {branches : List (List Part)} {os : List Statement.Offer}
    {timeout : Option Duration} {onTimeout : List Statement} {code : List Instr}
    (compiled : Emit.select flow branches timeout (Statement.code flow onTimeout) pc = .ok code)
    (makes : ∀ pc s, layBranches flow pc branches = .ok s →
      List.Forall₂ (Part.Makes flow) branches os)
    (here : p.Holds pc code) (behind : p.Continues flow (pc + code.length) rest) :
    ∃ s, p.Awaits flow pc os timeout onTimeout rest s := by
  obtain ⟨before, s, hs, hbefore, hcodes, rfl⟩ := select_eq_ok compiled
  rw [holds_cons] at here
  have hlength := length_joinSegments (pc + extent (before ++ s.codes)) hcodes
  rw [List.length_cons, hlength] at behind
  -- The end of the layout is the end of the code, since the last segment has no jump behind it.
  have hsegments := segmented_of_holds here.2 (by omega)
  obtain ⟨rfl, rfl⟩ | ⟨d, late, rfl, hlate, rfl⟩ := hbefore
  · exact ⟨_, here.1, serves_arms (makes _ _ hs) hs hsegments behind, rfl, .none⟩
  · cases hsegments with
    | cons holds exit others =>
      refine ⟨_, here.1, serves_arms (makes _ _ hs) hs ?_ behind, rfl,
        .some (.append hlate holds (continues_exit behind exit))⟩
      simpa [extent, Nat.add_assoc] using others

/-- The code of a statement that waits for a single lead. -/
theorem Program.awaits_of_leading {lead : Lead} (onFailure : Option (List Statement))
    {code : List Instr}
    (compiled : (Part.leading flow lead (onFailure.map (Statement.code flow))).code pc = .ok code)
    (here : p.Holds pc code) (behind : p.Continues flow (pc + code.length) rest) :
    ∃ s, p.Awaits flow pc [⟨lead, [], onFailure⟩] none [] rest s := by
  -- Such a statement is a choice with a single branch, with nothing behind the lead.
  rw [Part.leading, Emit.nothing_eq flow] at compiled
  refine awaits_of_holds compiled (fun _ _ _ => .cons ?_ .nil) here behind
  exact ⟨_, by rw [Statement.parts], rfl, rfl⟩

/-- The code of a choice as it stands in a body. -/
theorem Program.awaits_of_branches {branches : List (List Statement)} {timeout : Option Duration}
    {onTimeout : List Statement} {code : List Instr}
    (compiled : Emit.select flow (Statement.flatBranches flow branches) timeout
      (Statement.code flow onTimeout) pc = .ok code)
    (here : p.Holds pc code) (behind : p.Continues flow (pc + code.length) rest) :
    ∃ s, p.Awaits flow pc (Statement.offers branches) timeout onTimeout rest s := by
  rw [Statement.parts_openBranches] at compiled
  exact awaits_of_holds compiled (fun _ _ hs => Statement.forall₂_makes hs) here behind

theorem Program.leads_eq {os : List Statement.Offer} {arms : List Arm}
    (h : List.Forall₂ (p.Serves flow rest) os arms) :
    arms.map Arm.lead = os.map Statement.Offer.lead := by
  induction h with
  | nil => rfl
  | cons serves _ ih => simp [serves.lead, ih]

theorem Program.serves_getElem? {os : List Statement.Offer} {arms : List Arm}
    (h : List.Forall₂ (p.Serves flow rest) os arms) (arm : Nat) :
    Option.Rel (p.Serves flow rest) os[arm]? arms[arm]? := by
  induction h generalizing arm with
  | nil => exact .none
  | cons serves _ ih =>
    cases arm with
    | zero => exact .some serves
    | succ arm => simpa using ih arm

theorem Program.Awaits.move {os : List Statement.Offer} {timeout : Option Duration}
    {onTimeout : List Statement} {s : Select} (h : p.Awaits flow pc os timeout onTimeout rest s) :
    p.move pc = .ask (.suspended (os.map Statement.Offer.lead) timeout) s.target? := by
  rw [move_eq h.here, Instr.move, leads_eq h.arms, h.limit]

/-- The same replies fit a choice and the place that awaits it, and they lead to the same. -/
theorem Program.Awaits.target? {os : List Statement.Offer} {timeout : Option Duration}
    {onTimeout : List Statement} {s : Select} (h : p.Awaits flow pc os timeout onTimeout rest s)
    (r : Reply) :
    Option.Rel (p.Continues flow) (s.target? r)
      (Statement.goesOn? os timeout onTimeout rest r) := by
  cases r with
  | holds b => exact .none
  | timesOut => exact h.onTimeout
  | wins arm =>
    have harm := serves_getElem? h.arms arm
    simp only [Select.target?, Statement.goesOn?]
    -- An arm that is not there is not offered either.
    generalize os[arm]? = o, s.arms[arm]? = a at harm
    cases harm with
    | none => exact .none
    | some serves => exact .some serves.resume
  | fails arm =>
    have harm := serves_getElem? h.arms arm
    simp only [Select.target?, Statement.goesOn?]
    generalize os[arm]? = o, s.arms[arm]? = a at harm
    cases harm with
    | none => exact .none
    | some serves => exact serves.onFailure

theorem Program.Awaits.agrees {os : List Statement.Offer} {timeout : Option Duration}
    {onTimeout left : List Statement} {s : Select} {rs : List Reply}
    (h : p.Awaits flow pc os timeout onTimeout rest s)
    (chooses : Statement.move left = Statement.choose os timeout onTimeout rest)
    (after : ∀ r rs', rs = r :: rs' → ∀ pc rest, p.Continues flow pc rest →
      Agrees p.move Statement.move pc rest rs') :
    Agrees p.move Statement.move pc left rs :=
  .ask h.move chooses h.target? after

end Choice

/-! ## Moves without end

A program has as many silent moves as it has jumps in a row, and a body can be run through for as
long as it makes no move that needs a reply. -/

namespace Statement

mutual

/-- The moves from a statement to its next question, at most. -/
def distance : Statement → Nat
  | sequence body => distanceIn body + 1
  | loop body => distanceIn body + 1
  | _ => 1

/-- The moves from a body to its next question, at most. -/
def distanceIn : List Statement → Nat
  | [] => 0
  | s :: rest => if s.suspends then distance s else distance s + distanceIn rest

end

theorem distanceIn_append (a b : List Statement) :
    distanceIn (a ++ b) = if suspendsIn a then distanceIn a else distanceIn a + distanceIn b := by
  induction a with
  | nil => simp [suspendsIn, distanceIn]
  | cons s a ih =>
    rw [List.cons_append, distanceIn, ih, distanceIn, suspendsIn]
    -- What is behind a statement that waits does not count.
    by_cases hs : s.suspends = true
    · simp [hs]
    · by_cases ha : suspendsIn a = true
      · simp [hs, ha]
      · simp [hs, ha, Nat.add_assoc]

/-- Leaving a statement that does not wait brings a body nearer to its next question. -/
theorem distanceIn_cons {s : Statement} {rest : List Statement} (h : s.suspends = false) :
    distanceIn rest < distanceIn (s :: rest) := by
  have : 0 < distance s := by cases s <;> simp [distance]
  simp only [distanceIn, h, Bool.false_eq_true, if_false]
  omega

/-- So does splicing a sequence. -/
theorem distanceIn_sequence (body rest : List Statement) :
    distanceIn (body ++ rest) < distanceIn (sequence body :: rest) := by
  rw [distanceIn_append, distanceIn, suspends, distance]
  split <;> omega

/-- So does entering a loop whose body cannot be run through. -/
theorem distanceIn_loop {body : List Statement} (h : suspendsIn body = true)
    (rest : List Statement) :
    distanceIn (body ++ loop body :: rest) < distanceIn (loop body :: rest) := by
  simp [distanceIn_append, distanceIn, suspends, distance, h]

end Statement

/-! ## Correctness -/

namespace Program

variable {p : Program} {flow : String} {pc : Nat} {rest : List Statement}

/-- Where a single instruction was emitted it can be found. -/
theorem get?_of_one {i : Instr} {code : List Instr} (compiled : Emit.one i pc = .ok code)
    (here : p.Holds pc code) : p.get? pc = some i ∧ code.length = 1 := by
  obtain rfl : [i] = code := Except.ok.inj compiled
  exact ⟨(holds_cons.mp here).1, rfl⟩

/-- What lies where a branching was compiled. -/
theorem branch_of_holds {condition : Condition} {thenBody elseBody : List Statement}
    {code : List Instr}
    (compiled : ((Statement.branch condition thenBody elseBody).part flow).code pc = .ok code)
    (here : p.Holds pc code) (behind : p.Continues flow (pc + code.length) rest) :
    ∃ otherwise, p.get? pc = some (.branch condition otherwise) ∧
      p.Continues flow (pc + 1) (thenBody ++ rest) ∧
      p.Continues flow otherwise (elseBody ++ rest) := by
  rw [Statement.part, Part.following] at compiled
  obtain ⟨first, hfirst, h⟩ := bind_eq_ok.mp compiled
  -- Only if there is another side, a jump leads over it.
  cases elseBody with
  | nil =>
    obtain rfl := Except.ok.inj h
    obtain ⟨hbranch, hthen⟩ := holds_cons.mp here
    have hbehind : p.Continues flow (pc + 1 + first.length) rest := by
      simpa [Nat.add_assoc, Nat.add_comm 1] using behind
    exact ⟨_, hbranch, .append hfirst hthen hbehind, by simpa using hbehind⟩
  | cons s elseBody =>
    obtain ⟨second, hsecond, h⟩ := bind_eq_ok.mp h
    obtain rfl := Except.ok.inj h
    rw [List.cons_append, holds_cons, holds_append, holds_cons] at here
    obtain ⟨hbranch, hthen, hjump, helse⟩ := here
    have hbehind : p.Continues flow (pc + 1 + first.length + 1 + second.length) rest := by
      simpa [Nat.add_assoc, Nat.add_comm, Nat.add_left_comm] using behind
    exact ⟨_, hbranch, .append hfirst hthen (.jump hjump hbehind), .append hsecond helse hbehind⟩

/-- What lies where a loop was compiled. -/
theorem loop_of_holds {body : List Statement} {code : List Instr}
    (compiled : ((Statement.loop body).part flow).code pc = .ok code) (here : p.Holds pc code)
    (behind : p.Continues flow (pc + code.length) rest) :
    Statement.suspendsIn body = true ∧
      p.Continues flow pc (body ++ Statement.loop body :: rest) := by
  -- The jump at the end of the body leads back to the whole loop.
  have again : p.Continues flow pc (Statement.loop body :: rest) := .statement compiled here behind
  rw [Statement.part, Part.following] at compiled
  split at compiled
  · next suspends =>
    obtain ⟨inner, hinner, h⟩ := bind_eq_ok.mp compiled
    obtain rfl := Except.ok.inj h
    rw [holds_append, holds_cons] at here
    exact ⟨suspends, .append hinner here.1 (.jump here.2.1 again)⟩
  · simp at compiled

/-- What lies where a choice was compiled. -/
theorem awaits_of_alternative {branches : List (List Statement)} {code : List Instr}
    (compiled : ((Statement.alternative branches).part flow).code pc = .ok code)
    (here : p.Holds pc code) (behind : p.Continues flow (pc + code.length) rest) :
    ∃ s, p.Awaits flow pc (Statement.offers branches) none [] rest s := by
  rw [Statement.part, Part.following, Emit.nothing_eq flow] at compiled
  exact awaits_of_branches compiled here behind

theorem ofSeconds?_of_checkTimeout {seconds : Float} {d : Duration}
    (h : checkTimeout flow seconds = .ok d) : Duration.ofSeconds? seconds = some d := by
  unfold checkTimeout at h
  split at h
  · simp at h
  · split at h
    · simp at h
    · split at h
      · next hd => rw [hd, Except.ok.inj h]
      · simp at h

/-- A choice with a timeout that is accepted is a choice with that timeout. -/
theorem select_of_waitAny {branches : List (List Part)} {timeout : Option Float}
    {onTimeout : Option Emit} {code : List Instr}
    (h : Emit.waitAny flow branches timeout onTimeout pc = .ok code) :
    Emit.select flow branches (timeout.bind Duration.ofSeconds?) (onTimeout.getD Emit.nothing) pc =
      .ok code := by
  cases timeout with
  | none =>
    obtain ⟨limit, hlimit, h⟩ := bind_eq_ok.mp h
    obtain rfl : none = limit := Except.ok.inj hlimit
    -- There is nothing to be done when time is up if there is no timeout.
    cases onTimeout with
    | none => exact h
    | some body =>
      obtain ⟨_, hthrow, -⟩ := bind_eq_ok.mp h
      simp [throw, throwThe, MonadExceptOf.throw] at hthrow
  | some seconds =>
    obtain ⟨d, hd, h⟩ := bind_eq_ok.mp h
    rw [Option.bind_some, ofSeconds?_of_checkTimeout hd]
    exact h

/-- What lies where a choice with a timeout was compiled. -/
theorem awaits_of_waitAny {branches : List (List Statement)} {timeout : Option Float}
    {onTimeout : List Statement} {code : List Instr}
    (compiled : ((Statement.waitAny branches timeout onTimeout).part flow).code pc = .ok code)
    (here : p.Holds pc code) (behind : p.Continues flow (pc + code.length) rest) :
    ∃ s, p.Awaits flow pc (Statement.offers branches) (timeout.bind Duration.ofSeconds?) onTimeout
      rest s := by
  rw [Statement.part, Part.following] at compiled
  have hselect := select_of_waitAny compiled
  -- An empty body is passed on as none, and both have no code.
  have hbody : (if onTimeout.isEmpty then none else some (Statement.code flow onTimeout)).getD
      Emit.nothing = Statement.code flow onTimeout := by
    cases onTimeout with
    | nil => exact Emit.nothing_eq flow
    | cons s rest => rfl
  rw [← Statement.code, hbody] at hselect
  exact awaits_of_branches hselect here behind

/-- A program at a place and the statements that are left to do there show the same, as long as
they do so after one more reply. -/
theorem Continues.agrees_of_after {rs : List Reply}
    (after : ∀ r rs', rs = r :: rs' → ∀ pc rest, p.Continues flow pc rest →
      Agrees p.move Statement.move pc rest rs')
    (h : p.Continues flow pc rest) : Agrees p.move Statement.move pc rest rs := by
  -- Between two replies the statements come nearer to a question, and jumps lead on to one.
  induction hd : Statement.distanceIn rest using Nat.strongRecOn generalizing pc rest with
  | ind n nearer =>
    induction h with
    | finish here => exact .stop (move_eq here) rfl
    | jump here _ ih => exact .silent_left (move_eq here) (ih hd)
    | @statement pc s code rest compiled here behind _ =>
      subst hd
      cases s with
      -- A single instruction has been emitted for these, and what is left lies behind it.
      | send event params =>
        obtain ⟨hget, hlength⟩ := get?_of_one compiled here
        exact .act (move_eq hget) rfl
          (nearer _ (Statement.distanceIn_cons rfl) (hlength ▸ behind) rfl)
      | start target args isDetached =>
        obtain ⟨hget, hlength⟩ := get?_of_one compiled here
        exact .act (move_eq hget) rfl
          (nearer _ (Statement.distanceIn_cons rfl) (hlength ▸ behind) rfl)
      | assign var value isGlobal =>
        obtain ⟨hget, hlength⟩ := get?_of_one compiled here
        exact .act (move_eq hget) rfl
          (nearer _ (Statement.distanceIn_cons rfl) (hlength ▸ behind) rfl)
      | abort reason => exact .stop (move_eq (get?_of_one compiled here).1) rfl
      -- A sequence and a loop are only opened, so the program has not moved yet.
      | sequence body =>
        have spliced : p.Continues flow pc (body ++ rest) := .append compiled here behind
        exact .silent_right rfl (nearer _ (Statement.distanceIn_sequence body rest) spliced rfl)
      | loop body =>
        obtain ⟨suspends, entered⟩ := loop_of_holds compiled here behind
        exact .silent_right rfl (nearer _ (Statement.distanceIn_loop suspends rest) entered rfl)
      | branch condition thenBody elseBody =>
        obtain ⟨otherwise, hget, hthen, helse⟩ := branch_of_holds compiled here behind
        refine .ask (R := p.Continues flow) (move_eq hget) rfl (fun r => ?_) after
        cases r with
        | holds b => cases b <;> exact .some ‹_›
        | _ => exact .none
      | expect pattern =>
        obtain ⟨s, hs⟩ := awaits_of_leading none compiled here behind
        exact hs.agrees rfl after
      | await target args onFailure =>
        rw [Statement.part, Statement.handlerCode_eq] at compiled
        obtain ⟨s, hs⟩ := awaits_of_leading onFailure compiled here behind
        exact hs.agrees rfl after
      | execute action params result onFailure =>
        rw [Statement.part, Statement.handlerCode_eq] at compiled
        obtain ⟨s, hs⟩ := awaits_of_leading onFailure compiled here behind
        exact hs.agrees rfl after
      | alternative branches =>
        obtain ⟨s, hs⟩ := awaits_of_alternative compiled here behind
        exact hs.agrees rfl after
      | waitAny branches timeout onTimeout =>
        obtain ⟨s, hs⟩ := awaits_of_waitAny compiled here behind
        exact hs.agrees rfl after

/-- A program at a place and the statements that are left to do there show the same. -/
theorem Continues.agrees (h : p.Continues flow pc rest) (rs : List Reply) :
    Agrees p.move Statement.move pc rest rs := by
  induction rs generalizing pc rest with
  | nil => exact agrees_of_after (by simp) h
  | cons r rs ih =>
    -- Between two replies the statements decide, and after the next one the induction takes over.
    refine agrees_of_after (fun r' rs' hrs pc' rest' h' => ?_) h
    obtain ⟨rfl, rfl⟩ := List.cons.inj hrs
    exact ih h'

/-- At the first instruction of a compiled flow its whole body is left to do. -/
theorem continues_compile {d : FlowDefinition} (compiled : d.compile = .ok p) :
    p.Continues d.name 0 d.body := by
  obtain ⟨code, hcode, hp⟩ := bind_eq_ok.mp compiled
  obtain rfl := Except.ok.inj hp
  have here : Holds ⟨(code ++ [Instr.finish]).toArray⟩ 0 (code ++ [.finish]) := by
    intro j i hj
    simpa [get?] using hj
  rw [holds_append, holds_cons] at here
  -- Behind the body lies the end of the flow.
  have whole : Continues ⟨(code ++ [Instr.finish]).toArray⟩ d.name 0 (d.body ++ []) :=
    .append hcode here.1 (.finish here.2.1)
  rwa [List.append_nil] at whole

/-- **Correctness.** A compiled flow, run from its first instruction, has exactly one trace under
any replies, and it is the one trace of the statements of its body under these replies. -/
theorem trace_compile {d : FlowDefinition} (compiled : d.compile = .ok p) (rs : List Reply) :
    ∃ os, (∀ os', Trace p.move 0 rs os' ↔ os' = os) ∧
      ∀ os', Trace Statement.move d.body rs os' ↔ os' = os := by
  obtain ⟨os, hp, hbody⟩ := (continues_compile compiled).agrees rs
  exact ⟨os, fun os' => ⟨fun h => h.unique hp, fun h => h ▸ hp⟩,
    fun os' => ⟨fun h => h.unique hbody, fun h => h ▸ hbody⟩⟩

/-- A loop around a choice. Its first branch leads with another choice, one branch of which has
something to do on failure, and its second one leads with a sequence. -/
def nested : FlowDefinition where
  name := "nested"
  parameters := []
  description := ""
  body := [.loop [.alternative [
    [.alternative [[.await "child" ∅ (some [.send "Sorry" ∅])],
      [.expect ⟨"UserSaid", ∅, ∅, false⟩]], .send "Done" ∅],
    [.sequence [.execute "lookup" ∅ none none, .abort "enough"]]]]]

theorem trace_compile_nested : ∃ p, nested.compile = .ok p ∧
    ∃ os, (∀ os', Trace p.move 0 [.fails 0, .wins 1, .wins 2] os' ↔ os' = os) ∧
      ∀ os', Trace Statement.move nested.body [.fails 0, .wins 1, .wins 2] os' ↔ os' = os :=
  ⟨_, rfl, trace_compile rfl _⟩

end Program

end Dialogue
