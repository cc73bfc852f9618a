import Dialogue.Proofs.Program.Timeouts

/-!
# What is checked before a library is there

Before flows are compiled their references are checked, and the check goes wherever a statement may
stand. So nothing in a program of a library refers to something that is not there: it sends only
declared events, starts only flows of the library with arguments that these take, and calls only
actions that the library names. Where time may be up, it has a place to go on.

## Main definitions

* `Checker.Accepts` — what a mention refers to is there
* `Instr.IsValid` — what an instruction refers to is there

## Main results

* `Checker.accepts_of_checkBody` — the check goes wherever a statement may stand
* `FlowLibrary.isValid` — in the programs of a library all instructions are valid
* `FlowLibrary.mem_of_checkActions` — available actions
-/

namespace Dialogue

/-! ## Mentions that have been checked -/

namespace Checker

variable {c : Checker}

/-- What a mention refers to is there. -/
def Accepts (c : Checker) : Mention → Prop
  | .lead (.event pattern) => c.checkEvent pattern.event = .ok ()
  | .lead (.flow target args) => c.checkTarget target args = .ok ()
  | .lead (.action ..) => True
  | .timeout _ => True
  | .send event => c.checkEvent event = .ok ()
  | .start target args => c.checkTarget target args = .ok ()

/-- Of two checks, one after the other, both succeed. -/
theorem ok_of_bind {x y : Except DefinitionError Unit} (h : (x >>= fun _ => y) = .ok ()) :
    x = .ok () ∧ y = .ok () := by
  obtain ⟨⟨⟩, first, second⟩ := bind_eq_ok.1 h
  exact ⟨first, second⟩

mutual

theorem accepts_of_checkStatement : ∀ s : Statement, checkStatement c s = .ok () →
    ∀ m ∈ s.mentions, c.Accepts m
  | .expect pattern, h => by
    rw [checkStatement] at h
    rw [Statement.mentions]
    exact List.forall_mem_singleton.2 h
  | .send event params, h => by
    rw [checkStatement] at h
    rw [Statement.mentions]
    exact List.forall_mem_singleton.2 h
  | .start target args isDetached, h => by
    rw [checkStatement] at h
    rw [Statement.mentions]
    exact List.forall_mem_singleton.2 h
  | .await target args onFailure, h => by
    rw [checkStatement] at h
    rw [Statement.mentions]
    obtain ⟨first, handler⟩ := ok_of_bind h
    exact List.forall_mem_cons.2 ⟨first, accepts_of_checkHandler onFailure handler⟩
  | .execute action params result onFailure, h => by
    rw [checkStatement] at h
    rw [Statement.mentions]
    exact List.forall_mem_cons.2 ⟨trivial, accepts_of_checkHandler onFailure h⟩
  | .sequence body, h => by
    rw [checkStatement] at h
    rw [Statement.mentions]
    exact accepts_of_checkBody body h
  | .loop body, h => by
    rw [checkStatement] at h
    rw [Statement.mentions]
    exact accepts_of_checkBody body h
  | .alternative branches, h => by
    rw [checkStatement] at h
    rw [Statement.mentions]
    exact accepts_of_checkBranches branches h
  | .waitAny branches timeout onTimeout, h => by
    rw [checkStatement] at h
    rw [Statement.mentions]
    obtain ⟨first, late⟩ := ok_of_bind h
    refine List.forall_mem_append.2 ⟨fun m hm => ?_, List.forall_mem_append.2
      ⟨accepts_of_checkBranches branches first, accepts_of_checkBody onTimeout late⟩⟩
    obtain ⟨x, -, rfl⟩ := List.mem_map.1 hm
    trivial
  | .branch condition thenBody elseBody, h => by
    rw [checkStatement] at h
    rw [Statement.mentions]
    obtain ⟨first, second⟩ := ok_of_bind h
    exact List.forall_mem_append.2
      ⟨accepts_of_checkBody thenBody first, accepts_of_checkBody elseBody second⟩
  | .assign .., _ | .abort _, _ => by
    rw [Statement.mentions]
    exact nofun

/-- The check goes wherever a statement may stand. -/
theorem accepts_of_checkBody : ∀ body : List Statement, checkBody c body = .ok () →
    ∀ m ∈ Statement.mentionsIn body, c.Accepts m
  | [], _ => by
    rw [Statement.mentionsIn]
    exact nofun
  | s :: rest, h => by
    rw [checkBody] at h
    rw [Statement.mentionsIn]
    obtain ⟨first, others⟩ := ok_of_bind h
    exact List.forall_mem_append.2
      ⟨accepts_of_checkStatement s first, accepts_of_checkBody rest others⟩

theorem accepts_of_checkBranches : ∀ bs : List (List Statement), checkBranches c bs = .ok () →
    ∀ m ∈ Statement.mentionsInBranches bs, c.Accepts m
  | [], _ => by
    rw [Statement.mentionsInBranches]
    exact nofun
  | b :: rest, h => by
    rw [checkBranches] at h
    rw [Statement.mentionsInBranches]
    obtain ⟨first, others⟩ := ok_of_bind h
    exact List.forall_mem_append.2
      ⟨accepts_of_checkBody b first, accepts_of_checkBranches rest others⟩

theorem accepts_of_checkHandler : ∀ onFailure : Option (List Statement),
    checkHandler c onFailure = .ok () → ∀ m ∈ Statement.mentionsInHandler onFailure, c.Accepts m
  | none, _ => by
    rw [Statement.mentionsInHandler]
    exact nofun
  | some body, h => by
    rw [checkHandler] at h
    rw [Statement.mentionsInHandler]
    exact accepts_of_checkBody body h

end

theorem contains_of_checkEvent {event : String} (h : c.checkEvent event = .ok ()) :
    c.vocabulary.contains event = true := by
  unfold checkEvent at h
  split at h
  · assumption
  · cases h

theorem exists_of_checkTarget {target : String} {args : Table String Expr}
    (h : c.checkTarget target args = .ok ()) : ∃ parameters,
      c.signatures.get? target = some parameters ∧ ∀ key ∈ args.keys, key ∈ parameters := by
  unfold checkTarget at h
  split at h
  · cases h
  · next parameters found =>
    split at h
    · cases h
    · next none_eq =>
      refine ⟨parameters, found, fun key hkey => ?_⟩
      simpa using List.find?_eq_none.1 none_eq key hkey

end Checker

/-! ## The flows of a library -/

namespace FlowLibrary

variable {library : FlowLibrary}

/-- Of checks, one after the other, all succeed. -/
theorem ok_of_forM {α : Type} {check : α → Except DefinitionError Unit} : ∀ {as : List α},
    as.forM check = .ok () → ∀ a ∈ as, check a = .ok ()
  | [], _ => nofun
  | a :: rest, h => by
    obtain ⟨⟨⟩, first, others⟩ := bind_eq_ok.1 h
    exact List.forall_mem_cons.2 ⟨first, ok_of_forM others⟩

/-! ## Actions -/

theorem mem_sortNames {names : List String} {name : String} :
    name ∈ sortNames names ↔ name ∈ names := by
  unfold sortNames
  rw [Table.mem_keys]
  constructor
  · rintro ⟨u, stored⟩
    obtain ⟨n, hn, same⟩ := List.mem_map.1 (Table.mem_of_ofList stored)
    obtain ⟨rfl, -⟩ := Prod.mk.inj same
    exact hn
  · intro hn
    have stored : (Table.ofList (names.map fun n => (n, ())) : Table String Unit).contains name =
        true := by
      apply Table.contains_ofList
      simpa using hn
    exact Option.isSome_iff_exists.1 stored

/-- The actions that a library names are those that its flows call. -/
theorem mem_actions {action : String} : action ∈ library.actions ↔
    ∃ name flow, library.get? name = some flow ∧
      action ∈ Statement.actionsIn flow.definition.body := by
  rw [actions, mem_sortNames, List.mem_flatMap]
  constructor
  · rintro ⟨flow, hflow, called⟩
    obtain ⟨name, found⟩ := Table.mem_values.1 hflow
    exact ⟨name, flow, found, called⟩
  · rintro ⟨name, flow, found, called⟩
    exact ⟨flow, Table.mem_values.2 ⟨name, found⟩, called⟩

/-- If it has been checked that the actions are available, they are. -/
theorem mem_of_checkActions {available : List String} (h : library.checkActions available = .ok ())
    {action : String} (called : action ∈ library.actions) : action ∈ available := by
  obtain ⟨name, flow, found, inFlow⟩ := mem_actions.1 called
  have checked := ok_of_forM h flow (Table.mem_values.2 ⟨name, found⟩)
  have none_eq : missingAction? flow available = none := by
    split at checked
    · cases checked
    · assumption
  have here := List.find?_eq_none.1 none_eq action (mem_sortNames.2 inFlow)
  simpa using here

/-! ## Instructions -/

end FlowLibrary

/-- What an instruction refers to is there. -/
structure Instr.IsValid (library : FlowLibrary) (instr : Instr) : Prop where
  sends : ∀ event params, instr = .send event params → library.vocabulary.contains event = true
  starts : ∀ target args, instr.Starts target args → ∃ flow, library.get? target = some flow ∧
    ∀ key ∈ args.keys, key ∈ flow.definition.parameters
  calls : ∀ action, instr.Calls action → action ∈ library.actions
  times : ∀ s, instr = .select s → s.timeout.isSome = true → s.onTimeout.isSome = true

namespace FlowLibrary

/-- In the programs of a library all instructions are valid. -/
theorem isValid {vocabulary : Vocabulary} {ds : List FlowDefinition} {library : FlowLibrary}
    (h : ofDefinitions vocabulary ds = .ok library) {name : String}
    {flow : CompiledFlow} (hf : library.get? name = some flow) {pc : Nat} {instr : Instr}
    (hi : flow.program.get? pc = some instr) : instr.IsValid library := by
  obtain ⟨mem, compiled⟩ := exists_definition h hf
  obtain ⟨-, comprises⟩ := ofDefinitions_eq_ok_iff.1 h
  have draws := FlowDefinition.drawsOn_compile compiled hi
  have accepts := Checker.accepts_of_checkBody _ (comprises.checked _ mem)
  -- A flow that is started has been looked up among the signatures, which are those of the library.
  have target {self target : String} {args : Table String Expr}
      (h : Checker.checkTarget ⟨library.vocabulary, library.signatures, self⟩ target args =
        .ok ()) :
      ∃ f, library.get? target = some f ∧ ∀ key ∈ args.keys, key ∈ f.definition.parameters := by
    obtain ⟨ps, found, keys⟩ := Checker.exists_of_checkTarget h
    obtain ⟨f, hf, rfl⟩ := get?_signatures.1 found
    exact ⟨f, hf, keys⟩
  refine ⟨?_, ?_, ?_, ?_⟩
  · rintro event params rfl
    exact Checker.contains_of_checkEvent (accepts _ draws)
  · rintro _ _ (⟨flow', args, isDetached⟩ | ⟨arm, lead⟩)
    · exact target (accepts _ draws)
    · have mentioned := draws.1 _ arm
      rw [lead] at mentioned
      exact target (accepts _ mentioned)
  · rintro action ⟨arm, lead⟩
    have mentioned := draws.1 _ arm
    rw [lead] at mentioned
    refine mem_actions.2 ⟨name, flow, hf, ?_⟩
    rw [Statement.actionsIn_eq]
    exact List.mem_filterMap.2 ⟨_, mentioned, rfl⟩
  · rintro s rfl timed
    rw [draws.2.2]
    exact timed

end FlowLibrary

end Dialogue
