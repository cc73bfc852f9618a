import Dialogue.Proofs.Program.ControlFlow
import Dialogue.Proofs.Program.Faults
import Dialogue.Proofs.Program.Flattening
import Mathlib.Data.List.Perm.Subperm

/-!
# Compiled flows do not spin

The code of a flow settles, and behind it stands the end, where control rests. So from every place
of a program control comes to rest, and since it cannot visit a place twice it takes no more moves
than there are instructions.

A loop is refused if its body does not wait for certain. If it is not for another loop within it
that is refused as well, its body can be run through by taking the right sides of its branchings.

## Main definitions

* `Program.Settled` — the control flow of a whole program
* `Statement.RunsThrough` — a body can be run through without waiting or stopping

## Main results

* `FlowDefinition.compile_settled` — compiled flows come to rest, and a loop that is refused can be
  run through
-/

namespace Dialogue

/-! ## Whole programs -/

namespace Program

variable {p : Program} {pc : Nat}

/-- Control rests at a place. -/
def RestsAt (p : Program) (pc : Nat) : Prop := ∃ i, p.get? pc = some i ∧ i.IsRest

/-- A program whose control flow stays inside it and does not spin. -/
structure Settled (p : Program) : Prop where
  /-- Every place that an instruction names is in the program. -/
  targets : ∀ pc i, p.get? pc = some i → ∀ t ∈ i.targets, t < p.size
  /-- The last instruction, and no other one, is the end. -/
  finish : ∀ pc, p.get? pc = some .finish ↔ pc + 1 = p.size
  /-- Where control does not rest it leads on. -/
  progress : ∀ pc < p.size, p.RestsAt pc ∨ ∃ next, p.LeadsOn pc next
  /-- It leads to places of the program only. -/
  inside : ∀ pc next, p.LeadsOn pc next → next < p.size
  /-- It visits no place twice. -/
  nodup : ∀ pc < p.size, ∀ path, (pc :: path).IsChain p.LeadsOn → (pc :: path).Nodup
  /-- Whichever sides it takes, it rests within as many instructions as there are. -/
  rests : ∀ pc < p.size, ∀ visit : Nat → Nat, visit 0 = pc →
    (∀ n, p.RestsAt (visit n) ∨ p.LeadsOn (visit n) (visit (n + 1))) →
      ∃ n < p.size, p.RestsAt (visit n)

theorem lt_size_of_get? {i : Instr} (h : p.get? pc = some i) : pc < p.size :=
  (Array.getElem?_eq_some_iff.1 h).1

theorem leadsOn_or_restsAt (h : pc < p.size) : p.RestsAt pc ∨ ∃ next, p.LeadsOn pc next := by
  have here : p.get? pc = some p.instrs[pc] := Array.getElem?_eq_getElem h
  cases hi : p.instrs[pc] with
  | select | abort | finish => exact .inl ⟨_, here, by simp [hi, Instr.IsRest]⟩
  | send | start | assign | branch => exact .inr ⟨pc + 1, _, here, by simp [hi, Instr.next]⟩
  | jump target => exact .inr ⟨target, _, here, by simp [hi, Instr.next]⟩

theorem lt_size_of_leadsOn {next : Nat}
    (targets : ∀ pc i, p.get? pc = some i → ∀ t ∈ i.targets, t < p.size)
    (finish : ∀ pc, p.get? pc = some .finish ↔ pc + 1 = p.size) (h : p.LeadsOn pc next) :
    next < p.size := by
  obtain ⟨i, here, hnext⟩ := h
  -- Only the end has nothing behind it.
  have behind : i ≠ .finish → pc + 1 < p.size := by
    intro body
    have inside := lt_size_of_get? here
    have last : pc + 1 ≠ p.size := by
      intro last
      have := (finish pc).2 last
      exact body (Option.some.inj (here.symm.trans this))
    omega
  have named := targets pc i here
  cases i with
  | select | abort | finish => simp [Instr.next] at hnext
  | send | start | assign =>
    obtain rfl := List.mem_singleton.1 hnext
    exact behind (by simp)
  | branch condition otherwise =>
    simp only [Instr.next, List.mem_cons, List.not_mem_nil, or_false] at hnext
    rcases hnext with rfl | rfl
    · exact behind (by simp)
    · exact named _ (by simp [Instr.targets])
  | jump target =>
    obtain rfl := List.mem_singleton.1 hnext
    exact named _ (by simp [Instr.targets])

/-- A path that stays inside and visits no place twice is no longer than the program. -/
theorem length_le_size {path : List Nat} (inside : ∀ t ∈ path, t < p.size) (nodup : path.Nodup) :
    path.length ≤ p.size := by
  have sub : path ⊆ List.range p.size := fun t ht => List.mem_range.2 (inside t ht)
  simpa using (List.subperm_of_subset nodup sub).length_le

/-- Control that visits no place twice rests before it has visited all places. -/
theorem exists_restsAt {visit : Nat → Nat} (start : visit 0 < p.size)
    (inside : ∀ pc next, p.LeadsOn pc next → next < p.size)
    (nodup : ∀ pc < p.size, ∀ path, (pc :: path).IsChain p.LeadsOn → (pc :: path).Nodup)
    (on : ∀ n, p.RestsAt (visit n) ∨ p.LeadsOn (visit n) (visit (n + 1))) :
    ∃ n < p.size, p.RestsAt (visit n) := by
  by_contra! never
  have leads (n : Nat) (hn : n < p.size) : p.LeadsOn (visit n) (visit (n + 1)) :=
    (on n).resolve_left (never n hn)
  -- Otherwise there would be a path with one place more than the program has.
  have chain : ((List.range (p.size + 1)).map visit).IsChain p.LeadsOn := by
    rw [List.isChain_iff_getElem]
    intro n hn
    simp only [List.length_map, List.length_range] at hn
    simpa using leads n (by omega)
  have all : ∀ t ∈ (List.range (p.size + 1)).map visit, t < p.size := by
    simp only [List.forall_mem_map, List.mem_range]
    intro n hn
    cases n with
    | zero => exact start
    | succ n => exact inside _ _ (leads n (by omega))
  have once : ((List.range (p.size + 1)).map visit).Nodup := by
    rw [List.range_succ_eq_map, List.map_cons] at chain ⊢
    exact nodup _ start _ chain
  have := length_le_size all once
  rw [List.length_map, List.length_range] at this
  omega

/-- A program is settled if its code is, up to the end behind it. -/
theorem settled_of_settlesAt {code : List Instr} {x : Bool} (h : SettlesAt 0 code x) :
    (⟨(code ++ [Instr.finish]).toArray⟩ : Program).Settled := by
  generalize hp : (⟨(code ++ [Instr.finish]).toArray⟩ : Program) = p
  have get? (pc : Nat) : p.get? pc = (code ++ [Instr.finish])[pc]? := by simp [← hp, Program.get?]
  have size : p.size = code.length + 1 := by simp [← hp, Program.size]
  -- The code stands at the front, and the end right behind it.
  have holds : p.Holds 0 (code ++ [Instr.finish]) := by
    intro j i hj
    rw [Nat.zero_add, get?, hj]
  obtain ⟨here, last⟩ := holds_append.1 holds
  rw [Nat.zero_add] at last
  have atEnd : p.get? code.length = some .finish := (holds_cons.1 last).1
  have targets (pc : Nat) (i : Instr) (hi : p.get? pc = some i) (t : Nat) (ht : t ∈ i.targets) :
      t < p.size := by
    rw [get?] at hi
    rcases List.mem_append.1 (List.mem_of_getElem? hi) with body | finish
    · have := (h.within i body).2 t ht
      omega
    · obtain rfl := List.mem_singleton.1 finish
      simp [Instr.targets] at ht
  have finish (pc : Nat) : p.get? pc = some .finish ↔ pc + 1 = p.size := by
    constructor
    · intro hi
      have inside := lt_size_of_get? hi
      by_contra elsewhere
      rw [get?, List.getElem?_append_left (by omega)] at hi
      exact (h.within _ (List.mem_of_getElem? hi)).1 rfl
    · intro hpc
      obtain rfl : pc = code.length := by omega
      exact atEnd
  have inside (pc next : Nat) (on : p.LeadsOn pc next) : next < p.size :=
    lt_size_of_leadsOn targets finish on
  -- Control cannot come by the same place twice, for from everywhere in the code it comes to rest.
  have nodup (pc : Nat) (hpc : pc < p.size) (path : List Nat)
      (chain : (pc :: path).IsChain p.LeadsOn) : (pc :: path).Nodup := by
    have exit : p.ComesToRest (0 + code.length) := by
      rw [Nat.zero_add]
      exact comesToRest_of_get? atEnd (by simp [Instr.next])
    exact (h.rests p here exit pc (Nat.zero_le pc) (by omega)).nodup chain
  refine ⟨targets, finish, fun pc => leadsOn_or_restsAt, inside, nodup, ?_⟩
  rintro pc hpc visit rfl on
  exact exists_restsAt hpc inside nodup on

end Program

/-! ## Loops that are refused -/

namespace Statement

variable {a b body : List Statement}

/-- A body can be run through from its first statement to its last one, with any sides of its
branchings, and it neither waits nor stops on the way. -/
def RunsThrough (body : List Statement) : Prop :=
  ∃ (sides : List Bool) (os : List Observation),
    Run Statement.move body (sides.map Reply.holds) os [] [] ∧
      ∀ o ∈ os, ∀ leads timeout, o ≠ .suspended leads timeout

theorem RunsThrough.nil : RunsThrough [] := ⟨[], [], .refl, nofun⟩

theorem RunsThrough.append (ha : RunsThrough a) (hb : RunsThrough b) : RunsThrough (a ++ b) := by
  obtain ⟨sides, os, run, awake⟩ := ha
  obtain ⟨sides', os', run', awake'⟩ := hb
  refine ⟨sides ++ sides', os ++ os', ?_, List.forall_mem_append.2 ⟨awake, awake'⟩⟩
  have first := run_append (run.with_more (sides'.map Reply.holds)) b
  rw [List.map_append]
  exact first.trans run'

/-- A body whose statements do not wait is run through, if the loops in it wait. -/
theorem runsThrough_of_statements
    (h : ∀ s ∈ body, s.suspends = false → RunsThrough [s]) (runs : suspendsIn body = false) :
    RunsThrough body := by
  induction body with
  | nil => exact .nil
  | cons s rest ih =>
    rw [suspendsIn, Bool.or_eq_false_iff] at runs
    rw [List.forall_mem_cons] at h
    exact (h.1 runs.1).append (ih h.2 runs.2)

theorem runsThrough_statement (s : Statement)
    (loops : ∀ b, loop b ∈ allIn [s] → suspendsIn b = true)
    (runs : s.suspends = false) : RunsThrough [s] := by
  induction s using induct with
  | step s ih =>
    have inBody : ∀ b ∈ bodies s, suspendsIn b = false → RunsThrough b := by
      intro b hb
      apply runsThrough_of_statements
      intro t ht
      apply ih t (mem_inner_of_mem hb ht)
      intro b' hb'
      apply loops b'
      rw [allIn, allIn, List.append_nil] at hb' ⊢
      rcases List.mem_cons.1 hb' with rfl | within
      · exact List.mem_cons_of_mem _ (mem_inner_of_mem hb ht)
      · exact List.mem_cons_of_mem _ (inner_trans s t (mem_inner_of_mem hb ht) _ within)
    cases s with
    | expect | await | execute | alternative | waitAny | abort => simp [suspends] at runs
    | send | start | assign => exact ⟨[], _, .act rfl .refl, by simp⟩
    | loop body =>
      rw [suspends] at runs
      have := loops body (by simp [allIn])
      simp [runs] at this
    | sequence body =>
      rw [suspends] at runs
      obtain ⟨sides, os, run, awake⟩ := inBody body (by simp [bodies]) runs
      refine ⟨sides, os, .silent rfl ?_, awake⟩
      rwa [List.append_nil]
    | branch condition thenBody elseBody =>
      rw [suspends, Bool.and_eq_false_iff] at runs
      -- One of the two sides can be run through, so it is taken.
      rcases runs with first | second
      · obtain ⟨sides, os, run, awake⟩ := inBody thenBody (by simp [bodies]) first
        refine ⟨true :: sides, _ :: os, .reply rfl rfl ?_, List.forall_mem_cons.2 ⟨by simp, awake⟩⟩
        simpa using run
      · obtain ⟨sides, os, run, awake⟩ := inBody elseBody (by simp [bodies]) second
        refine ⟨false :: sides, _ :: os, .reply rfl rfl ?_, List.forall_mem_cons.2 ⟨by simp, awake⟩⟩
        simpa using run

/-- Where there is a loop that is not known to wait, the body of some loop can be run through. -/
theorem exists_runsThrough {whole : List Statement} (s : Statement) (hs : s ∈ allIn whole)
    (isLoop : s = loop body) (runs : suspendsIn body = false) :
    ∃ b, loop b ∈ allIn whole ∧ RunsThrough b := by
  induction s using induct generalizing body with
  | step s ih =>
    subst isLoop
    have inside : inner (loop body) = allIn body := by rw [inner]
    by_cases all : ∀ b, loop b ∈ allIn body → suspendsIn b = true
    · refine ⟨body, hs, runsThrough_of_statements (fun t ht => ?_) runs⟩
      apply runsThrough_statement
      intro b hb
      apply all
      rw [allIn, allIn, List.append_nil] at hb
      rcases List.mem_cons.1 hb with rfl | within
      · exact mem_allIn_of_mem ht
      · exact mem_allIn_of_inner ht within
    -- An inner loop is no better than the outer one, but it is smaller.
    · push Not at all
      obtain ⟨b, hb, runs⟩ := all
      rw [← inside] at hb
      exact ih _ hb (inner_subset_allIn hs hb) rfl (by simpa using runs)

end Statement

/-- **No spinning.** The program of a flow names only places in it, ends with its only end, and
control comes to rest in it wherever it begins. A flow is refused for a loop only if the body of one
of its loops can be run through without waiting or stopping. -/
theorem FlowDefinition.compile_settled (d : FlowDefinition) :
    (∀ p, d.compile = .ok p → p.Settled) ∧
      ∀ flow, d.compile = .error (.nonBlockingLoop flow) → flow = d.name ∧
        ∃ body, Statement.loop body ∈ Statement.allIn d.body ∧ Statement.RunsThrough body := by
  constructor
  · intro p hp
    obtain ⟨code, hcode, hp⟩ := bind_eq_ok.1 hp
    cases hp
    apply Program.settled_of_settlesAt
    exact Statement.settles_body (fun s _ => s.settles_part) 0 code hcode
  · intro flow refused
    obtain ⟨s, hs, fault⟩ := exists_fault refused
    cases fault with
    | loop runs => exact ⟨rfl, Statement.exists_runsThrough _ hs rfl runs⟩
    | timeout wrong => simpa using error_of_checkTimeout wrong

/-- A loop around a loop that does not wait. -/
def spinning : FlowDefinition where
  name := "spinning"
  parameters := []
  description := ""
  body := [.loop [.loop [.send "Tick" ∅], .expect ⟨"UserSaid", ∅, ∅, false⟩]]

theorem compile_settled_nested : (∃ p, Program.nested.compile = .ok p ∧ p.Settled) ∧
    spinning.compile = .error (.nonBlockingLoop "spinning") ∧
      ∃ body, Statement.loop body ∈ Statement.allIn spinning.body ∧ Statement.RunsThrough body :=
  ⟨⟨_, rfl, Program.nested.compile_settled.1 _ rfl⟩,
    rfl, (spinning.compile_settled.2 _ rfl).2⟩

end Dialogue
