import Dialogue.Proofs.Program.Mentions
import Dialogue.Proofs.Program.Within
import Mathlib.Logic.Relation

/-!
# Control flow

Without waiting, control leads on from an instruction to the one behind it, to the target of a
jump, or to one of the two sides of a branching. The only way back is the jump at the end of a
loop, and a loop is compiled only if its body cannot be run through without waiting or stopping.
So control that begins in front of a loop comes to rest inside it, and control that begins inside
of it may come back once but not twice.

The code of a statement is looked at together with the place behind it. If control comes to rest
from there, it comes to rest from wherever it enters the code. If the statement cannot be run
through, control that enters at the front comes to rest whatever lies behind.

## Main definitions

* `Instr.targets`, `Instr.next` — the places that an instruction names, and where control leads on
* `Program.LeadsOn`, `Program.ComesToRest` — the control flow of a program
* `SettlesAt` — what holds of code at a place

## Main results

* `Program.ComesToRest.nodup` — control that comes to rest visits no place twice
* `Statement.settles_part` — the code of a statement settles
-/

open Relation

namespace Dialogue

/-! ## Control flow -/

/-- The places that an instruction names. -/
def Instr.targets : Instr → List Nat
  | select s => s.arms.flatMap (fun arm => arm.resume :: arm.onFailure.toList) ++ s.onTimeout.toList
  | branch _ otherwise => [otherwise]
  | jump target => [target]
  | send .. | start .. | assign .. | abort _ | finish => []

/-- Where control leads on from an instruction at a place, without waiting. -/
def Instr.next (pc : Nat) : Instr → List Nat
  | send .. | start .. | assign .. => [pc + 1]
  | branch _ otherwise => [pc + 1, otherwise]
  | jump target => [target]
  | select _ | abort _ | finish => []

/-- An instruction that is not the end, and names places of one kind, names places of any wider
kind. -/
theorem Instr.targets_imp {i : Instr} {P Q : Nat → Prop}
    (h : i ≠ .finish ∧ ∀ t ∈ i.targets, P t) (wider : ∀ t, P t → Q t) :
    i ≠ .finish ∧ ∀ t ∈ i.targets, Q t :=
  ⟨h.1, fun t ht => wider t (h.2 t ht)⟩

/-- Control rests at an instruction that waits, stops, or ends the flow. -/
def Instr.IsRest : Instr → Prop
  | select _ | abort _ | finish => True
  | send .. | start .. | assign .. | branch .. | jump _ => False

namespace Program

/-- Control leads on from one place to another, without waiting. -/
def LeadsOn (p : Program) (pc next : Nat) : Prop :=
  ∃ i, p.get? pc = some i ∧ next ∈ i.next pc

/-- From a place, control does not lead on for ever. -/
def ComesToRest (p : Program) (pc : Nat) : Prop :=
  Acc (fun next pc => p.LeadsOn pc next) pc

variable {p : Program} {pc : Nat}

theorem comesToRest_of_get? {i : Instr} (here : p.get? pc = some i)
    (next : ∀ t ∈ i.next pc, p.ComesToRest t) : p.ComesToRest pc := by
  constructor
  rintro t ⟨i', here', ht⟩
  obtain rfl : i = i' := by simpa [here] using here'
  exact next t ht

theorem comesToRest_of_jump {target : Nat} (here : p.get? pc = some (.jump target))
    (h : p.ComesToRest target) : p.ComesToRest pc :=
  comesToRest_of_get? here (by simpa [Instr.next])

/-- At a branching control comes to rest if it does so on both sides. -/
theorem comesToRest_of_branch {condition : Condition} {otherwise : Nat}
    (here : p.get? pc = some (.branch condition otherwise)) (body : p.ComesToRest (pc + 1))
    (h : p.ComesToRest otherwise) : p.ComesToRest pc :=
  comesToRest_of_get? here (by simpa [Instr.next] using ⟨body, h⟩)

theorem ComesToRest.leadsOn {next : Nat} (h : p.ComesToRest pc) (on : p.LeadsOn pc next) :
    p.ComesToRest next :=
  h.inv on

/-- Control that comes to rest does not come back to where it has been. -/
theorem ComesToRest.not_transGen (h : p.ComesToRest pc) : ¬ TransGen p.LeadsOn pc pc := by
  -- After one round it would come to rest later, although it is at the same place.
  induction acc_transGen_iff.2 h with
  | intro pc rest ih =>
    intro round
    have back : TransGen (Function.swap p.LeadsOn) pc pc := transGen_swap.2 round
    exact ih pc back (acc_transGen_iff.1 (rest pc back)) round

theorem ComesToRest.nodup {path : List Nat} (h : p.ComesToRest pc)
    (chain : (pc :: path).IsChain p.LeadsOn) : (pc :: path).Nodup := by
  induction path generalizing pc with
  | nil => simp
  | cons next path ih =>
    have far : (pc :: next :: path).Pairwise (TransGen p.LeadsOn) :=
      (chain.imp fun _ _ on => TransGen.single on).pairwise
    rw [List.isChain_cons_cons] at chain
    rw [List.nodup_cons]
    constructor
    · intro again
      exact h.not_transGen (List.rel_of_pairwise_cons far again)
    · exact ih (h.leadsOn chain.1) chain.2

end Program

/-! ## Code that settles -/

/-- Code at a place names only places in it and the one behind it. If control comes to rest from
behind it, it comes to rest from wherever it enters the code; code that cannot be run through needs
nothing behind it when it is entered at the front. -/
structure SettlesAt (pc : Nat) (code : List Instr) (stops : Bool) : Prop where
  within : ∀ i ∈ code, i ≠ .finish ∧ ∀ t ∈ i.targets, pc ≤ t ∧ t ≤ pc + code.length
  rests : ∀ p : Program, p.Holds pc code → p.ComesToRest (pc + code.length) →
    ∀ t, pc ≤ t → t ≤ pc + code.length → p.ComesToRest t
  stops : stops = true → ∀ p : Program, p.Holds pc code → p.ComesToRest pc

namespace SettlesAt

variable {pc : Nat} {a b code : List Instr} {x y : Bool}

theorem weaken (h : SettlesAt pc code x) : SettlesAt pc code false :=
  ⟨h.within, h.rests, nofun⟩

theorem nil (pc : Nat) : SettlesAt pc [] false where
  within := by simp
  rests p _ exit t low high := by
    obtain rfl : t = pc := Nat.le_antisymm high low
    exact exit
  stops := nofun

/-- A single instruction that leads nowhere but to the place behind it. -/
theorem one {i : Instr} (pc : Nat) (body : i ≠ .finish) (none : i.targets = [])
    (next : ∀ t ∈ i.next pc, x = false ∧ t = pc + 1) : SettlesAt pc [i] x where
  within := by simp [body, none]
  rests p here exit t low high := by
    have here := (Program.holds_cons.1 here).1
    rcases Nat.eq_or_lt_of_le low with rfl | later
    · apply Program.comesToRest_of_get? here
      intro t ht
      rw [(next t ht).2]
      exact exit
    · obtain rfl : t = pc + 1 := Nat.le_antisymm high later
      exact exit
  stops stops p here := by
    apply Program.comesToRest_of_get? (Program.holds_cons.1 here).1
    intro t ht
    have := (next t ht).1
    simp [this] at stops

theorem append (ha : SettlesAt pc a x) (hb : SettlesAt (pc + a.length) b y) :
    SettlesAt pc (a ++ b) (x || y) where
  within i hi := by
    rw [List.length_append]
    rcases List.mem_append.1 hi with first | second
    · exact Instr.targets_imp (ha.within i first) fun t _ => by omega
    · exact Instr.targets_imp (hb.within i second) fun t _ => by omega
  rests p here exit t low high := by
    rw [List.length_append] at exit high
    obtain ⟨first, second⟩ := Program.holds_append.1 here
    have behind := hb.rests p second (by rwa [Nat.add_assoc])
    rcases Nat.le_total t (pc + a.length) with inFirst | inSecond
    · exact ha.rests p first (behind _ (Nat.le_refl _) (by omega)) t low inFirst
    · exact behind t inSecond (by omega)
  stops stops p here := by
    obtain ⟨first, second⟩ := Program.holds_append.1 here
    rcases Bool.or_eq_true_iff.1 stops with stops | stops
    · exact ha.stops stops p first
    -- What stops control in the second code stops it also when it comes from the first one.
    · exact ha.rests p first (hb.stops stops p second) pc (Nat.le_refl _) (Nat.le_add_right ..)

/-- A loop comes to rest in its body, and the jump at its end leads to its front. -/
theorem loop (h : SettlesAt pc code true) : SettlesAt pc (code ++ [.jump pc]) true where
  within i hi := by
    rw [List.length_append, List.length_singleton]
    rcases List.mem_append.1 hi with inside | last
    · exact Instr.targets_imp (h.within i inside) fun t _ => by omega
    · obtain rfl := List.mem_singleton.1 last
      simp only [Instr.targets, List.mem_singleton, forall_eq]
      exact ⟨nofun, by omega⟩
  rests p here exit t low high := by
    rw [List.length_append, List.length_singleton] at exit high
    obtain ⟨inside, last⟩ := Program.holds_append.1 here
    have back : p.ComesToRest (pc + code.length) := by
      apply Program.comesToRest_of_jump (Program.holds_cons.1 last).1
      exact h.stops rfl p inside
    rcases Nat.lt_or_ge (pc + code.length) t with behind | inBody
    · obtain rfl : t = pc + (code.length + 1) := by omega
      exact exit
    · exact h.rests p inside back t low inBody
  stops _ p here := h.stops rfl p (Program.holds_append.1 here).1

/-- A branching without another side leads into its body or behind it. -/
theorem branch (condition : Condition) (h : SettlesAt (pc + 1) code x) :
    SettlesAt pc (.branch condition (pc + 1 + code.length) :: code) false where
  within i hi := by
    rw [List.length_cons]
    rcases List.mem_cons.1 hi with rfl | inside
    · simp only [Instr.targets, List.mem_singleton, forall_eq]
      exact ⟨nofun, by omega⟩
    · exact Instr.targets_imp (h.within i inside) fun t _ => by omega
  rests p here exit t low high := by
    obtain ⟨first, inside⟩ := Program.holds_cons.1 here
    have exit : p.ComesToRest (pc + 1 + code.length) := by
      rwa [List.length_cons, Nat.add_comm code.length, ← Nat.add_assoc] at exit
    rw [List.length_cons] at high
    have body := h.rests p inside exit
    rcases Nat.eq_or_lt_of_le low with rfl | later
    · exact Program.comesToRest_of_branch first (body _ (Nat.le_refl _) (by omega)) exit
    · exact body t later (by omega)
  stops := nofun

/-- A branching with two sides leads into one of them, and the first one leads over the other. -/
theorem branch_else (condition : Condition) (ha : SettlesAt (pc + 1) a x)
    (hb : SettlesAt (pc + 1 + a.length + 1) b y) :
    SettlesAt pc (.branch condition (pc + 1 + a.length + 1) ::
      (a ++ .jump (pc + 1 + a.length + 1 + b.length) :: b)) (x && y) where
  within i hi := by
    simp only [List.length_cons, List.length_append]
    simp only [List.mem_cons, List.mem_append] at hi
    rcases hi with rfl | first | rfl | second
    · simp only [Instr.targets, List.mem_singleton, forall_eq]
      exact ⟨nofun, by omega⟩
    · exact Instr.targets_imp (ha.within i first) fun t _ => by omega
    · simp only [Instr.targets, List.mem_singleton, forall_eq]
      exact ⟨nofun, by omega⟩
    · exact Instr.targets_imp (hb.within i second) fun t _ => by omega
  rests p here exit t low high := by
    simp only [List.length_cons, List.length_append] at exit high
    simp only [Program.holds_cons, Program.holds_append] at here
    obtain ⟨test, first, passing, second⟩ := here
    have exit : p.ComesToRest (pc + 1 + a.length + 1 + b.length) := by
      convert exit using 1
      omega
    -- The second side first: the first one leads over it, and both lead to the place behind.
    have otherwise := hb.rests p second exit
    have body := ha.rests p first (Program.comesToRest_of_jump passing exit)
    rcases Nat.lt_or_ge (pc + 1 + a.length) t with inSecond | inFirst
    · exact otherwise t inSecond (by omega)
    rcases Nat.eq_or_lt_of_le low with rfl | later
    · exact Program.comesToRest_of_branch test (body _ (Nat.le_refl _) (by omega))
        (otherwise _ (Nat.le_refl _) (by omega))
    · exact body t later inFirst
  stops stops p here := by
    simp only [Program.holds_cons, Program.holds_append] at here
    obtain ⟨test, first, -, second⟩ := here
    obtain ⟨stopsA, stopsB⟩ := Bool.and_eq_true_iff.1 stops
    exact Program.comesToRest_of_branch test (ha.stops stopsA p first) (hb.stops stopsB p second)

end SettlesAt

/-! ## Segments -/

/-- Segments that settle where they have been laid out, each with room for a jump behind it. -/
inductive Laid : Nat → List (List Instr) → Prop
  | nil (pc : Nat) : Laid pc []
  | cons {pc : Nat} {code codes} (settles : SettlesAt pc code false)
    (rest : Laid (pc + code.length + 1) codes) : Laid pc (code :: codes)

namespace Laid

variable {pc stop : Nat} {codes : List (List Instr)} {p : Program}

/-- Segments name only places in them and the ones between them. -/
theorem within (h : Laid pc codes) : ∀ code ∈ codes, ∀ i ∈ code,
    i ≠ .finish ∧ ∀ t ∈ i.targets, pc ≤ t ∧ t < pc + extent codes := by
  induction h with
  | nil => simp
  | @cons pc code codes settles _ ih =>
    rw [List.forall_mem_cons, extent]
    constructor
    · intro i hi
      exact Instr.targets_imp (settles.within i hi) fun t _ => by omega
    · intro code' hcode' i hi
      exact Instr.targets_imp (ih code' hcode' i hi) fun t _ => by omega

/-- From each segment control comes to rest if it does so from their end. -/
theorem rests (h : Laid pc codes) (here : p.Segmented stop pc codes) (exit : p.ComesToRest stop) :
    ∀ t, pc ≤ t → t < pc + extent codes → p.ComesToRest t := by
  induction h with
  | nil =>
    intro t low high
    rw [extent] at high
    omega
  | @cons pc code codes settles _ ih =>
    cases here with
    | cons holds out others =>
      have out : p.ComesToRest (pc + code.length) := by
        rcases out with rfl | jump
        · exact exit
        · exact Program.comesToRest_of_jump jump exit
      intro t low high
      rw [extent] at high
      rcases Nat.lt_or_ge (pc + code.length) t with later | inside
      · exact ih others t later (by omega)
      · exact settles.rests p holds out t low inside

end Laid

/-! ## The code of statements -/

/-- A code settles wherever it begins. -/
def Emit.Settles (e : Emit) (stops : Bool) : Prop :=
  ∀ pc code, e pc = .ok code → SettlesAt pc code stops

/-- The code of a part settles, and so does what it does on failure. -/
structure Part.Settles (p : Part) (stops : Bool) : Prop where
  code : p.code.Settles stops
  onFailure : ∀ handler, p.onFailure = some handler → handler.Settles false

section Code

variable {flow : String} {x y : Bool}

theorem Emit.settles_nothing : nothing.Settles false := by
  intro pc code h
  cases h
  exact .nil pc

theorem Emit.settles_one {i : Instr} (body : i ≠ .finish) (none : i.targets = [])
    (next : ∀ pc, ∀ t ∈ i.next pc, x = false ∧ t = pc + 1) : (one i).Settles x := by
  intro pc code h
  cases h
  exact .one pc body none (next pc)

theorem Emit.Settles.andThen {a b : Emit} (ha : a.Settles x) (hb : b.Settles y) :
    (a.andThen b).Settles (x || y) := by
  intro pc code h
  obtain ⟨first, hfirst, h⟩ := bind_eq_ok.1 h
  obtain ⟨second, hsecond, h⟩ := bind_eq_ok.1 h
  cases h
  exact (ha pc first hfirst).append (hb _ second hsecond)

theorem Emit.Settles.loop {body : Emit} (h : body.Settles true) : (loop body).Settles true := by
  intro pc code hcode
  obtain ⟨inner, hinner, hcode⟩ := bind_eq_ok.1 hcode
  cases hcode
  exact (h pc inner hinner).loop

theorem Emit.Settles.branch {thenBody : Emit} (condition : Condition) (h : thenBody.Settles x) :
    (branch condition thenBody none).Settles false := by
  intro pc code hcode
  obtain ⟨first, hfirst, hcode⟩ := bind_eq_ok.1 hcode
  cases hcode
  exact (h _ first hfirst).branch condition

theorem Emit.Settles.branch_else {thenBody elseBody : Emit} (condition : Condition)
    (h : thenBody.Settles x) (h' : elseBody.Settles y) :
    (Emit.branch condition thenBody (some elseBody)).Settles (x && y) := by
  intro pc code hcode
  obtain ⟨first, hfirst, hcode⟩ := bind_eq_ok.1 hcode
  obtain ⟨second, hsecond, hcode⟩ := bind_eq_ok.1 hcode
  cases hcode
  exact (h _ first hfirst).branch_else condition (h' _ second hsecond)

theorem Emit.settles_all {codes : List Emit} (h : ∀ e ∈ codes, e.Settles false) :
    (all codes).Settles false := by
  induction codes with
  | nil => exact settles_nothing
  | cons e rest ih =>
    rw [List.forall_mem_cons] at h
    exact h.1.andThen (ih h.2)

/-- The segments of branches settle where they are laid out, and arms lead to where they begin. -/
theorem laid_layBranches {branches : List (List Part)}
    (h : ∀ b ∈ branches, ∀ part ∈ b, part.Settles false) {pc : Nat} {s : Segments}
    (laid : layBranches flow pc branches = .ok s) : Laid pc s.codes ∧
      ∀ arm ∈ s.arms, ∀ t ∈ arm.resume :: arm.onFailure.toList,
        pc ≤ t ∧ t < pc + extent s.codes := by
  induction branches generalizing pc s with
  | nil =>
    cases laid
    exact ⟨.nil pc, nofun⟩
  | cons b branches ih =>
    rw [List.forall_mem_cons] at h
    obtain ⟨head, tail, lead, code, rfl, -, hcode, rest⟩ := layBranches_cons laid
    have parts := List.forall_mem_cons.1 h.1
    have settles : SettlesAt pc code false :=
      Emit.settles_all (by simpa using fun p hp => (parts.2 p hp).code) pc code hcode
    -- Behind the code of the branch stands the one that handles a failure, if there is one.
    rcases rest with ⟨-, s', hs', rfl⟩ | ⟨handler, failure, s', hhandler, hfailure, hs', rfl⟩
    · obtain ⟨codes, arms⟩ := ih h.2 hs'
      refine ⟨.cons settles codes, List.forall_mem_cons.2 ⟨?_, fun arm harm t ht => ?_⟩⟩
      · simp only [Option.toList_none, List.mem_singleton, forall_eq, extent]
        omega
      · have := arms arm harm t ht
        simp only [extent]
        omega
    · obtain ⟨codes, arms⟩ := ih h.2 hs'
      have onFailure := parts.1.onFailure handler hhandler _ failure hfailure
      refine ⟨.cons settles (.cons onFailure codes),
        List.forall_mem_cons.2 ⟨?_, fun arm harm t ht => ?_⟩⟩
      · simp only [Option.toList_some, List.mem_cons, List.not_mem_nil, or_false, forall_eq_or_imp,
          forall_eq, extent]
        omega
      · have := arms arm harm t ht
        simp only [extent]
        omega

theorem extent_append (a b : List (List Instr)) : extent (a ++ b) = extent a + extent b := by
  induction a with
  | nil => simp [extent]
  | cons code a ih =>
    rw [List.cons_append, extent, extent, ih]
    omega

/-- Control rests at a choice. From each of its segments it leads behind the choice. -/
theorem Emit.settles_select {branches : List (List Part)} {timeout : Option Duration}
    {onTimeout : Emit} (h : ∀ b ∈ branches, ∀ part ∈ b, part.Settles false)
    (h' : onTimeout.Settles x) : (select flow branches timeout onTimeout).Settles true := by
  intro pc code hcode
  obtain ⟨before, s, hs, first, filled, rfl⟩ := select_eq_ok hcode
  obtain ⟨codes, arms⟩ := laid_layBranches h hs
  have late : Laid (pc + 1) (before ++ s.codes) := by
    rcases first with ⟨-, rfl⟩ | ⟨d, late, -, hlate, rfl⟩
    · simpa [extent] using codes
    · refine .cons (h' _ late hlate).weaken ?_
      simpa [extent, Nat.add_assoc] using codes
  have length := Program.length_joinSegments (pc + extent (before ++ s.codes)) filled
  constructor
  · intro i hi
    rw [List.length_cons, length]
    rcases List.mem_cons.1 hi with rfl | inside
    -- The select itself names the beginnings of its segments.
    · refine ⟨by simp, fun t ht => ?_⟩
      have total := extent_append before s.codes
      rw [Instr.targets, List.mem_append, List.mem_flatMap] at ht
      rcases ht with ⟨arm, harm, ht⟩ | ht
      · have := arms arm harm t ht
        omega
      · simp only [Option.mem_toList, Option.map_eq_some_iff] at ht
        obtain ⟨-, -, rfl⟩ := ht
        omega
    · rcases mem_joinSegments inside with rfl | ⟨segment, hsegment, hi⟩
      · simp only [Instr.targets, List.mem_singleton, forall_eq]
        exact ⟨by simp, by omega⟩
      · exact Instr.targets_imp (late.within segment hsegment i hi) fun t _ => by omega
  · intro p here exit t low high
    rw [List.length_cons, length] at exit high
    obtain ⟨select, segments⟩ := Program.holds_cons.1 here
    have segmented := Program.segmented_of_holds segments (by omega)
    rcases Nat.eq_or_lt_of_le low with rfl | later
    · exact Program.comesToRest_of_get? select (by simp [Instr.next])
    · exact late.rests segmented exit t later (by omega)
  · intro _ p here
    exact Program.comesToRest_of_get? (Program.holds_cons.1 here).1 (by simp [Instr.next])

theorem Emit.settles_waitAny {branches : List (List Part)} {timeout : Option Float}
    {onTimeout : Option Emit} (h : ∀ b ∈ branches, ∀ part ∈ b, part.Settles false)
    (h' : ∀ e, onTimeout = some e → e.Settles false) :
    (waitAny flow branches timeout onTimeout).Settles true := by
  have late : (onTimeout.getD nothing).Settles false := by
    cases onTimeout with
    | none => exact settles_nothing
    | some e => exact h' e rfl
  intro pc code hcode
  exact settles_select h late pc code (Program.select_of_waitAny hcode)

theorem Part.settles_leading {lead : Lead} {onFailure : Option Emit}
    (h : ∀ e, onFailure = some e → e.Settles false) :
    (leading flow lead onFailure).Settles true where
  code := by
    show (Emit.select flow [[⟨some lead, onFailure, Emit.nothing⟩]] none Emit.nothing).Settles true
    apply Emit.settles_select _ Emit.settles_nothing
    simpa using ⟨Emit.settles_nothing, h⟩
  onFailure := h

theorem Part.settles_following {code : Emit} (h : code.Settles x) : (following code).Settles x :=
  ⟨h, nofun⟩

theorem Part.Settles.weaken {p : Part} (h : p.Settles x) : p.Settles false :=
  ⟨fun pc code hcode => (h.code pc code hcode).weaken, h.onFailure⟩

end Code

namespace Statement

variable {flow : String} {body : List Statement}

theorem settles_body (h : ∀ s ∈ body, (part flow s).Settles s.suspends) :
    (Emit.all ((parts flow body).map Part.code)).Settles (suspendsIn body) := by
  induction body with
  | nil =>
    rw [parts, suspendsIn]
    exact Emit.settles_nothing
  | cons s rest ih =>
    rw [List.forall_mem_cons] at h
    rw [parts, suspendsIn]
    exact h.1.code.andThen (ih h.2)

theorem settles_handlerCode {onFailure : Option (List Statement)}
    (h : ∀ b ∈ onFailure.toList, ∀ s ∈ b, (part flow s).Settles s.suspends) :
    ∀ e, handlerCode flow onFailure = some e → e.Settles false := by
  cases onFailure with
  | none => simp [handlerCode]
  | some body =>
    simp only [handlerCode, Option.some.injEq, forall_eq']
    intro pc code hcode
    exact (settles_body (by simpa using h) pc code hcode).weaken

/-- The code of a statement settles. If the statement cannot be run through, control that enters at
its front comes to rest in it. -/
theorem settles_part (s : Statement) : (part flow s).Settles s.suspends := by
  induction s using induct with
  | step s ih =>
    have inBody : ∀ b ∈ bodies s, ∀ t ∈ b, (part flow t).Settles t.suspends :=
      fun b hb t ht => ih t (mem_inner_of_mem hb ht)
    have inBranches : ∀ bs, s.branches? = some bs →
        ∀ ps ∈ flatBranches flow bs, ∀ p ∈ ps, p.Settles false := by
      intro bs choice ps hps p hp
      obtain ⟨t, ht, rfl⟩ := exists_of_mem_flatBranches hps hp
      exact (ih t (mem_inner_of_branches? choice ht)).weaken
    cases s with
    | expect pattern =>
      rw [part]
      exact Part.settles_leading (by simp)
    | await target args onFailure =>
      rw [part]
      exact Part.settles_leading (settles_handlerCode inBody)
    | execute action params result onFailure =>
      rw [part]
      exact Part.settles_leading (settles_handlerCode inBody)
    | send | start | assign =>
      rw [part, suspends]
      exact Part.settles_following (Emit.settles_one (by simp) rfl (by simp [Instr.next]))
    | abort reason =>
      rw [part, suspends]
      exact Part.settles_following (Emit.settles_one (by simp) rfl (by simp [Instr.next]))
    | sequence body =>
      rw [part, suspends]
      exact Part.settles_following (settles_body (inBody body (by simp [bodies])))
    | loop body =>
      -- A loop is compiled only if its body suspends, so that going around comes to rest.
      have inside := settles_body (inBody body (by simp [bodies]))
      rw [part, suspends]
      apply Part.settles_following
      split
      · next suspends =>
        rw [suspends] at inside ⊢
        exact inside.loop
      · intro pc code hcode
        cases hcode
    | branch condition thenBody elseBody =>
      have first := settles_body (inBody thenBody (by simp [bodies]))
      have second := settles_body (inBody elseBody (by simp [bodies]))
      rw [part, suspends]
      apply Part.settles_following
      split
      · next empty =>
        rw [List.isEmpty_iff.1 empty, suspendsIn, Bool.and_false]
        exact first.branch condition
      · exact first.branch_else condition second
    | alternative branches =>
      rw [part, suspends]
      exact Part.settles_following
        (Emit.settles_select (inBranches branches rfl) Emit.settles_nothing)
    | waitAny branches timeout onTimeout =>
      have late := settles_body (inBody onTimeout (by simp [bodies]))
      rw [part, suspends]
      apply Part.settles_following
      apply Emit.settles_waitAny (inBranches branches rfl)
      intro e he
      split at he
      · cases he
      · cases he
        intro pc code hcode
        exact (late pc code hcode).weaken

end Statement

end Dialogue
