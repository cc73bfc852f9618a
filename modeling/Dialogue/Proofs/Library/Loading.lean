import Dialogue.Library
import Dialogue.Proofs.Evaluation
import Dialogue.Proofs.Table
import Dialogue.Proofs.Variables
import Mathlib.Data.List.Forall2

/-!
# What a library is loaded from

Files are read one after the other, and so are the declarations and definitions in them. Everything
is checked along the way, and the first mistake ends it. But whether there is a mistake, and what is
loaded if there is none, can be said without any order: the vocabulary has the events that are
declared in some file, the library has the flows that are defined in some file, and references are
checked against all of them. So the order makes no difference, except to which of several mistakes
is reported.

## Main definitions

* `Vocabulary.Extends` — a vocabulary has the declared events beside those that it had
* `CompiledFlow.IsOf` — a flow is what a definition defines
* `FlowLibrary.Comprises` — a library is made of some definitions
* `FlowFile.SameParts` — the same declarations and definitions, in whatever files and order

## Main results

* `Vocabulary.extend_eq_ok_iff`, `FlowLibrary.ofDefinitions_eq_ok_iff`
* `FlowLibrary.load_eq_ok_iff` — what is loaded, whatever the order
* `FlowLibrary.load_order_immaterial` — the order makes no difference
-/

namespace Dialogue

/-! ## Events -/

/-- A vocabulary has the declared events beside those that it had. -/
structure Vocabulary.Extends (v : Vocabulary) (ds : List EventDeclaration) (w : Vocabulary) :
    Prop where
  named : ∀ d ∈ ds, Text.isBlankText d.name = false
  get?_iff : ∀ name kind, w.get? name = some kind ↔
    v.get? name = some kind ∨ ∃ d ∈ ds, d.name = name ∧ d.kind = kind

namespace Vocabulary

variable {v w : Vocabulary} {ds ds' : List EventDeclaration}

theorem declare_eq_ok_iff {name : String} {kind : EventKind} :
    v.declare name kind = .ok w ↔ Text.isBlankText name = false ∧
      (∀ k, v.get? name = some k → k = kind) ∧ w = v.insert name kind := by
  unfold declare
  split
  · next blank => simp [blank]
  · next named =>
    split
    · next existing found =>
      split
      -- What is declared already is stored once more, with the kind that it has.
      · next same => simp [named, found, same, Table.insert_eq_self (same ▸ found), eq_comm]
      · next other => simp [found, other]
    · next fresh => simp [named, fresh, eq_comm]

/-- The declared events are added one after the other. -/
theorem extend_cons (v : Vocabulary) (d : EventDeclaration) (ds : List EventDeclaration) :
    v.extend (d :: ds) = v.declare d.name d.kind >>= fun v => v.extend ds := by
  unfold extend
  rw [extendWith]
  cases v.declare d.name d.kind <;> rfl

theorem extend_append : v.extend (ds ++ ds') = v.extend ds >>= fun v => v.extend ds' := by
  induction ds generalizing v with
  | nil => rfl
  | cons d rest ih => simp only [List.cons_append, extend_cons, ih, bind_assoc]

theorem extends_nil_iff : v.Extends [] w ↔ w = v := by
  constructor
  · intro h
    refine Table.ext_get? fun name => Option.ext fun kind => ?_
    simpa using h.get?_iff name kind
  · rintro rfl
    exact ⟨nofun, by simp⟩

/-- An event has one kind only. -/
theorem Extends.agree (h : v.Extends ds w) {d : EventDeclaration} (hd : d ∈ ds) {k : EventKind}
    (found : v.get? d.name = some k) : k = d.kind := by
  have old := (h.get?_iff d.name k).2 (.inl found)
  have new := (h.get?_iff d.name d.kind).2 (.inr ⟨d, hd, rfl, rfl⟩)
  exact Option.some.inj (old.symm.trans new)

theorem get?_insert_iff {name n : String} {kind k : EventKind}
    (agree : ∀ k, v.get? name = some k → k = kind) :
    (v.insert name kind).get? n = some k ↔ v.get? n = some k ∨ (name = n ∧ kind = k) := by
  rw [Table.get?_insert]
  split
  · next here =>
    subst here
    constructor
    · exact fun same => .inr ⟨rfl, Option.some.inj same⟩
    · rintro (found | ⟨-, same⟩)
      · rw [agree _ found]
      · rw [same]
  · next elsewhere => simp [Ne.symm elsewhere]

/-- The first declaration has to agree with what was there, and the others with both. -/
theorem extends_cons_iff {d : EventDeclaration} :
    v.Extends (d :: ds) w ↔ Text.isBlankText d.name = false ∧
      (∀ k, v.get? d.name = some k → k = d.kind) ∧ Extends (v.insert d.name d.kind) ds w := by
  constructor
  · intro h
    obtain ⟨named, others⟩ := List.forall_mem_cons.1 h.named
    have agree k (found : v.get? d.name = some k) : k = d.kind :=
      h.agree List.mem_cons_self found
    refine ⟨named, agree, others, fun name kind => ?_⟩
    rw [h.get?_iff, get?_insert_iff agree, List.exists_mem_cons_iff, or_assoc]
  · rintro ⟨named, agree, h⟩
    refine ⟨List.forall_mem_cons.2 ⟨named, h.named⟩, fun name kind => ?_⟩
    rw [h.get?_iff, get?_insert_iff agree, List.exists_mem_cons_iff, or_assoc]

/-- Declarations can be added if they agree with what was there and with each other. -/
theorem extend_eq_ok_iff : v.extend ds = .ok w ↔ v.Extends ds w := by
  induction ds generalizing v with
  | nil =>
    rw [extends_nil_iff, eq_comm]
    exact Except.ok.injEq w v ▸ Iff.rfl
  | cons d rest ih =>
    rw [extend_cons, bind_eq_ok, extends_cons_iff]
    simp only [declare_eq_ok_iff, ih]
    constructor
    · rintro ⟨u, ⟨named, agree, rfl⟩, h⟩
      exact ⟨named, agree, h⟩
    · rintro ⟨named, agree, h⟩
      exact ⟨_, ⟨named, agree, rfl⟩, h⟩

theorem Extends.perm (h : v.Extends ds w) (p : ds.Perm ds') : v.Extends ds' w where
  named d hd := h.named d (p.mem_iff.2 hd)
  get?_iff name kind := by simp only [h.get?_iff, p.mem_iff]

end Vocabulary

/-! ## Names -/

/-- A flow has a name, and no two of its parameters have the same one. -/
structure FlowDefinition.IsNamed (d : FlowDefinition) : Prop where
  name : Text.isBlankText d.name = false
  parameters : d.parameters.Nodup

namespace Signatures

variable {s s' : Signatures} {ds : List FlowDefinition}

theorem firstRepeated?_eq_none_iff {seen l : List String} :
    firstRepeated? seen l = none ↔ l.Nodup ∧ ∀ p ∈ l, p ∉ seen := by
  induction l generalizing seen with
  | nil => simp [firstRepeated?]
  | cons p rest ih =>
    rw [firstRepeated?]
    split
    · next here => simp [List.contains_iff_mem.1 here]
    · next new =>
      rw [ih, List.nodup_cons, List.forall_mem_cons]
      simp only [List.contains_iff_mem] at new
      grind

theorem declare_eq_ok_iff {d : FlowDefinition} : s.declare d = .ok s' ↔
    d.IsNamed ∧ s.get? d.name = none ∧ s' = s.insert d.name d.parameters := by
  have parameters : firstRepeated? [] d.parameters = none ↔ d.parameters.Nodup := by
    simp [firstRepeated?_eq_none_iff]
  unfold declare
  constructor
  -- The checks that have been passed are those that are asked for, one by one.
  · intro h
    split at h
    · cases h
    · next name =>
      split at h
      · cases h
      · next free =>
        split at h
        · cases h
        · next once =>
          exact ⟨⟨by simpa using name, parameters.1 once⟩, by simpa [Table.contains] using free,
            (Except.ok.inj h).symm⟩
  · rintro ⟨⟨name, distinct⟩, free, rfl⟩
    simp [name, Table.contains, free, parameters.2 distinct]

theorem foldlM_declare_eq_ok_iff : ds.foldlM declare s = .ok s' ↔
    (∀ d ∈ ds, d.IsNamed) ∧ (ds.map FlowDefinition.name).Nodup ∧
      (∀ d ∈ ds, s.get? d.name = none) ∧
        s' = (ds.map fun d => (d.name, d.parameters)).foldl (fun t e => t.insert e.1 e.2) s := by
  induction ds generalizing s with
  | nil =>
    constructor
    · intro h
      exact ⟨nofun, List.nodup_nil, nofun, (Except.ok.inj h).symm⟩
    · rintro ⟨-, -, -, rfl⟩
      rfl
  | cons d rest ih =>
    -- A name is free after `d` if it was free before and is not the one of `d`.
    have free : (∀ d' ∈ rest, (s.insert d.name d.parameters).get? d'.name = none) ↔
        d.name ∉ rest.map FlowDefinition.name ∧ ∀ d' ∈ rest, s.get? d'.name = none := by
      simp only [Table.get?_insert, List.mem_map, not_exists, not_and, ← forall_and]
      refine forall_congr' fun d' => ?_
      split
      · next same => simp [same]
      · next other => simp [other]
    rw [List.foldlM_cons, bind_eq_ok]
    simp only [declare_eq_ok_iff, ih, List.map_cons, List.foldl_cons, List.forall_mem_cons,
      List.nodup_cons]
    constructor
    · rintro ⟨_, ⟨named, unused, rfl⟩, others, distinct, later, rfl⟩
      obtain ⟨apart, later⟩ := free.1 later
      exact ⟨⟨named, others⟩, ⟨apart, distinct⟩, ⟨unused, later⟩, rfl⟩
    · rintro ⟨⟨named, others⟩, ⟨apart, distinct⟩, ⟨unused, later⟩, rfl⟩
      exact ⟨_, ⟨named, unused, rfl⟩, others, distinct, free.2 ⟨apart, later⟩, rfl⟩

/-- Every flow has a name of its own, and is there with its parameters. -/
theorem ofDefinitions_eq_ok_iff : ofDefinitions ds = .ok s ↔
    (∀ d ∈ ds, d.IsNamed) ∧ (ds.map FlowDefinition.name).Nodup ∧
      s = Table.ofList (ds.map fun d => (d.name, d.parameters)) := by
  unfold ofDefinitions
  rw [foldlM_declare_eq_ok_iff]
  simp [Table.ofList]

end Signatures

/-! ## Flows -/

/-- A flow is what a definition defines. -/
structure CompiledFlow.IsOf (flow : CompiledFlow) (d : FlowDefinition) : Prop where
  definition : flow.definition = d
  compile : d.compile = .ok flow.program

theorem CompiledFlow.isOf_iff {flow : CompiledFlow} {d : FlowDefinition} {program : Program}
    (compiled : d.compile = .ok program) : flow.IsOf d ↔ flow = ⟨d, program⟩ := by
  constructor
  · rintro ⟨rfl, h⟩
    rw [compiled] at h
    rw [Except.ok.inj h]
  · rintro rfl
    exact ⟨rfl, compiled⟩

namespace FlowLibrary

variable {v : Vocabulary} {ds ds' : List FlowDefinition} {library : FlowLibrary}

/-- The flows of a library with their parameters. -/
def signatures (l : FlowLibrary) : Signatures :=
  l.flows.map fun _ flow => flow.definition.parameters

theorem get?_signatures {name : String} {parameters : List String} :
    library.signatures.get? name = some parameters ↔
      ∃ flow, library.get? name = some flow ∧ flow.definition.parameters = parameters := by
  rw [signatures, Table.get?_map, Option.map_eq_some_iff]
  rfl

/-- A library is made of some definitions. Its flows are what these define, and all that its flows
refer to is in the library. -/
structure Comprises (l : FlowLibrary) (ds : List FlowDefinition) : Prop where
  named : ∀ d ∈ ds, d.IsNamed
  distinct : (ds.map FlowDefinition.name).Nodup
  compiled : ∀ d ∈ ds, ∃ program, d.compile = .ok program
  flows : ∀ name flow, l.get? name = some flow ↔ ∃ d ∈ ds, d.name = name ∧ flow.IsOf d
  checked : ∀ d ∈ ds, Checker.checkBody ⟨l.vocabulary, l.signatures, d.name⟩ d.body = .ok ()

theorem exists_compileAll (h : ∀ d ∈ ds, ∃ program, d.compile = .ok program) :
    ∃ flows, compileAll ds = .ok flows := by
  induction ds with
  | nil => exact ⟨[], rfl⟩
  | cons d rest ih =>
    obtain ⟨⟨program, compiled⟩, others⟩ := List.forall_mem_cons.1 h
    obtain ⟨flows, hflows⟩ := ih others
    exact ⟨(d.name, ⟨d, program⟩) :: flows, by rw [compileAll, compiled, hflows]; rfl⟩

/-- The flows that have been compiled are those that are defined. -/
theorem compileAll_spec {flows : List (String × CompiledFlow)} (h : compileAll ds = .ok flows) :
    flows.map Prod.fst = ds.map FlowDefinition.name ∧
      (∀ name flow, (name, flow) ∈ flows ↔ ∃ d ∈ ds, d.name = name ∧ flow.IsOf d) ∧
        ∀ d ∈ ds, ∃ program, d.compile = .ok program := by
  induction ds generalizing flows with
  | nil =>
    obtain rfl := Except.ok.inj h
    exact ⟨rfl, by simp, nofun⟩
  | cons d rest ih =>
    obtain ⟨program, compiled, h⟩ := bind_eq_ok.1 h
    obtain ⟨others, hothers, h⟩ := bind_eq_ok.1 h
    obtain rfl := Except.ok.inj h
    obtain ⟨names, mem, compile⟩ := ih hothers
    refine ⟨congrArg (d.name :: ·) names, fun name flow => ?_,
      List.forall_mem_cons.2 ⟨⟨program, compiled⟩, compile⟩⟩
    rw [List.mem_cons, mem, List.exists_mem_cons_iff, CompiledFlow.isOf_iff compiled,
      Prod.mk.injEq, eq_comm (a := name)]

/-- Of checks, one after the other, all have to succeed. -/
theorem forIn_eq_ok_iff {α : Type} {check : α → Except DefinitionError Unit} {as : List α} :
    (forIn as PUnit.unit fun a _ => do
      check a
      pure (ForInStep.yield PUnit.unit)) = .ok PUnit.unit ↔ ∀ a ∈ as, check a = .ok () := by
  induction as with
  | nil => exact iff_of_true rfl nofun
  | cons a rest ih =>
    rw [List.forIn_cons, List.forall_mem_cons, ← ih, bind_assoc, bind_eq_ok]
    constructor
    · rintro ⟨⟨⟩, first, others⟩
      exact ⟨first, others⟩
    · rintro ⟨first, others⟩
      exact ⟨(), first, others⟩

/-- The parameters of the flows of a library are those that are defined. -/
theorem signatures_eq (distinct : (ds.map FlowDefinition.name).Nodup)
    (compiled : ∀ d ∈ ds, ∃ program, d.compile = .ok program)
    (flows : ∀ name flow, library.get? name = some flow ↔ ∃ d ∈ ds, d.name = name ∧ flow.IsOf d) :
    library.signatures = Table.ofList (ds.map fun d => (d.name, d.parameters)) := by
  refine Table.ext_get? fun name => Option.ext fun parameters => ?_
  have once : ((ds.map fun d => (d.name, d.parameters)).map Prod.fst).Nodup := by
    rwa [List.map_map]
  rw [Table.get?_ofList once, List.mem_map, get?_signatures]
  constructor
  · rintro ⟨flow, found, rfl⟩
    obtain ⟨d, hd, rfl, rfl, -⟩ := (flows name flow).1 found
    exact ⟨_, hd, rfl⟩
  · rintro ⟨d, hd, same⟩
    obtain ⟨rfl, rfl⟩ := Prod.mk.inj same
    obtain ⟨program, compile⟩ := compiled d hd
    exact ⟨⟨d, program⟩, (flows ..).2 ⟨d, hd, rfl, rfl, compile⟩, rfl⟩

/-- All names, references and programs have to be in order, and then the library is made of the
definitions. -/
theorem ofDefinitions_eq_ok_iff :
    ofDefinitions v ds = .ok library ↔ library.vocabulary = v ∧ library.Comprises ds := by
  unfold ofDefinitions
  simp only [bind_eq_ok, Signatures.ofDefinitions_eq_ok_iff]
  constructor
  · rintro ⟨_, ⟨named, distinct, rfl⟩, ⟨⟩, checked, flows, compiled, h⟩
    obtain rfl := Except.ok.inj h
    obtain ⟨names, mem, compile⟩ := compileAll_spec compiled
    have found name flow : FlowLibrary.get? ⟨Table.ofList flows, v⟩ name = some flow ↔
        ∃ d ∈ ds, d.name = name ∧ flow.IsOf d := by
      rw [get?, Table.get?_ofList (names ▸ distinct), mem]
    refine ⟨rfl, named, distinct, compile, found, ?_⟩
    rw [signatures_eq distinct compile found]
    exact forIn_eq_ok_iff.1 checked
  · rintro ⟨rfl, h⟩
    obtain ⟨flows, compiled⟩ := exists_compileAll h.compiled
    obtain ⟨names, mem, -⟩ := compileAll_spec compiled
    refine ⟨_, ⟨h.named, h.distinct, rfl⟩, (), ?_, flows, compiled, ?_⟩
    · rw [← signatures_eq h.distinct h.compiled h.flows]
      exact forIn_eq_ok_iff.2 h.checked
    -- The library is determined by its flows, and these by their names and definitions.
    · have same : Table.ofList flows = library.flows := by
        refine Table.ext_get? fun name => Option.ext fun flow => ?_
        rw [Table.get?_ofList (names ▸ h.distinct), mem]
        exact (h.flows name flow).symm
      rw [same]
      rfl

theorem Comprises.perm (h : library.Comprises ds) (p : ds.Perm ds') : library.Comprises ds' where
  named d hd := h.named d (p.mem_iff.2 hd)
  distinct := (p.map FlowDefinition.name).nodup_iff.1 h.distinct
  compiled d hd := h.compiled d (p.mem_iff.2 hd)
  flows name flow := by simp only [h.flows, p.mem_iff]
  checked d hd := h.checked d (p.mem_iff.2 hd)

/-! ## Files -/

/-- Files that can be read are gone through one after the other. -/
theorem readAll_eq {files : List SourceFile} {fs : List FlowFile}
    (reads : files.map FlowFile.read = fs.map .ok) : readAll v ds files = do
      let w ← v.extend (fs.flatMap FlowFile.events)
      return (w, ds ++ fs.flatMap FlowFile.flows) := by
  -- Each file changes the vocabulary and the definitions that the next one starts from.
  induction fs generalizing files v ds with
  | nil =>
    obtain rfl := List.map_eq_nil_iff.1 reads
    simp [readAll, Vocabulary.extend, Vocabulary.extendWith]
  | cons f rest ih =>
    obtain ⟨file, files, rfl, read, reads⟩ := List.map_eq_cons_iff.1 reads
    rw [readAll, read]
    simp only [List.flatMap_cons, Vocabulary.extend_append, bind_assoc, ih reads,
      List.append_assoc]
    rfl

/-- A library can be loaded from files that can be read if all that is declared and defined in them
fits together, and then it is made of that. -/
theorem load_eq_ok_iff {files : List SourceFile} {fs : List FlowFile}
    (reads : files.map FlowFile.read = fs.map .ok) : load v files = .ok library ↔
      v.Extends (fs.flatMap FlowFile.events) library.vocabulary ∧
        library.Comprises (fs.flatMap FlowFile.flows) := by
  rw [load, readAll_eq reads, bind_assoc, bind_eq_ok]
  simp only [pure_bind, List.nil_append, ofDefinitions_eq_ok_iff, Vocabulary.extend_eq_ok_iff]
  constructor
  · rintro ⟨_, declared, rfl, defined⟩
    exact ⟨declared, defined⟩
  · rintro ⟨declared, defined⟩
    exact ⟨_, declared, rfl, defined⟩

end FlowLibrary

/-- The same declarations and definitions, in whatever files and in whatever order. -/
structure FlowFile.SameParts (fs fs' : List FlowFile) : Prop where
  events : (fs.flatMap FlowFile.events).Perm (fs'.flatMap FlowFile.events)
  flows : (fs.flatMap FlowFile.flows).Perm (fs'.flatMap FlowFile.flows)

namespace FlowFile.SameParts

variable {fs gs fs' : List FlowFile}

theorem symm (h : SameParts fs fs') : SameParts fs' fs := ⟨h.events.symm, h.flows.symm⟩

/-- The declarations and the definitions in each file come in another order. -/
theorem of_forall₂ (within : List.Forall₂ (fun f f' => f.events.Perm f'.events ∧
    f.flows.Perm f'.flows) fs fs') : SameParts fs fs' := by
  induction within with
  | nil => exact ⟨.refl _, .refl _⟩
  | cons first _ ih => exact ⟨first.1.append ih.events, first.2.append ih.flows⟩

/-- The files come in another order, and so do the declarations and the definitions in each. -/
theorem of_rearranged (files : fs.Perm gs) (within : List.Forall₂ (fun f f' =>
    f.events.Perm f'.events ∧ f.flows.Perm f'.flows) gs fs') : SameParts fs fs' where
  events := (files.flatMap_right _).trans (of_forall₂ within).events
  flows := (files.flatMap_right _).trans (of_forall₂ within).flows

end FlowFile.SameParts

namespace FlowLibrary

variable {v : Vocabulary} {library : FlowLibrary} {files files' : List SourceFile}
  {fs fs' : List FlowFile}

theorem load_of_sameParts (reads : files.map FlowFile.read = fs.map .ok)
    (reads' : files'.map FlowFile.read = fs'.map .ok) (same : FlowFile.SameParts fs fs')
    (h : load v files = .ok library) : load v files' = .ok library := by
  obtain ⟨declared, defined⟩ := (load_eq_ok_iff reads).1 h
  exact (load_eq_ok_iff reads').2 ⟨declared.perm same.events, defined.perm same.flows⟩

/-- Files with the same declarations and definitions, in whatever order, load the same library or
none at all; so its flows and programs, the kinds of its events, the actions that it names and what
is said about available actions are the same too. What is declared or defined in one file can be
referred to in every other one, since all references are checked against the whole library. -/
theorem load_order_immaterial (v : Vocabulary) (reads : files.map FlowFile.read = fs.map .ok)
    (reads' : files'.map FlowFile.read = fs'.map .ok) (same : FlowFile.SameParts fs fs')
    (library : FlowLibrary) :
    (load v files = .ok library ↔ load v files' = .ok library) ∧
      (load v files = .ok library ↔
        v.Extends (fs.flatMap FlowFile.events) library.vocabulary ∧
          library.Comprises (fs.flatMap FlowFile.flows)) :=
  ⟨⟨load_of_sameParts reads reads' same, load_of_sameParts reads' reads same.symm⟩,
    load_eq_ok_iff reads⟩

/-- A flow that sends an event and awaits a flow, both of which are in another file. -/
def visitFile : SourceFile where
  path := "visit.toml"
  content := .ok "[[flows]]
name = \"visit\"
[[flows.body]]
type = \"send\"
event = \"BotWave\"
[[flows.body]]
type = \"await\"
flow = \"talk\"
"

/-- An event and a flow. -/
def talkFile : SourceFile where
  path := "talk.toml"
  content := .ok "[[events]]
name = \"BotWave\"
kind = \"output\"
[[flows]]
name = \"talk\"
"

theorem load_order_immaterial_visit : ∃ visit talk library,
    [visitFile, talkFile].map FlowFile.read = [visit, talk].map .ok ∧
      [talkFile, visitFile].map FlowFile.read = [talk, visit].map .ok ∧
        FlowFile.SameParts [visit, talk] [talk, visit] ∧
          library.names = ["talk", "visit"] ∧ library.vocabulary.isOutput "BotWave" = true ∧
            load .standard [visitFile, talkFile] = .ok library ∧
              load .standard [talkFile, visitFile] = .ok library := by
  obtain ⟨visit, hvisit, -⟩ := exists_of_toOption_any
    (show (FlowFile.read visitFile).toOption.any (fun _ => true) = true by decide +kernel)
  obtain ⟨talk, htalk, -⟩ := exists_of_toOption_any
    (show (FlowFile.read talkFile).toOption.any (fun _ => true) = true by decide +kernel)
  obtain ⟨library, loaded, found⟩ := exists_of_toOption_any
    (show (load .standard [visitFile, talkFile]).toOption.any (fun l =>
      l.names = ["talk", "visit"] ∧ l.vocabulary.isOutput "BotWave" = true) = true by
        decide +kernel)
  obtain ⟨names, output⟩ := of_decide_eq_true found
  have reads : [visitFile, talkFile].map FlowFile.read = [visit, talk].map .ok := by
    simp [hvisit, htalk]
  have reads' : [talkFile, visitFile].map FlowFile.read = [talk, visit].map .ok := by
    simp [hvisit, htalk]
  have same : FlowFile.SameParts [visit, talk] [talk, visit] :=
    .of_rearranged (.swap ..) (List.forall₂_same.2 fun _ _ => ⟨.refl _, .refl _⟩)
  exact ⟨visit, talk, library, reads, reads', same, names, output, loaded,
    (load_order_immaterial .standard reads reads' same library).1.1 loaded⟩

end FlowLibrary

end Dialogue
