import Dialogue.Proofs.Document.Value
import Dialogue.Statement.Document

/-!
# Statements that are written and read

A flow that was read from a document comes back from the document that it is written as, and so do
its statements at every depth. Reading runs over the whole document and reads each part in several
ways, so what it preserves is said of a reading: whatever the part was read as survives. A statement
survives if its parts do, which is one case for each kind of statement.

## Main definitions

* `Statement.Survives` — a statement is read back from its document
* `Statement.PartsSurvive` — what that takes for each kind of statement
* `Statement.Reading.Survives` — all that a part of a document was read as survives

## Main results

* `Statement.survives_of_parts` — a statement survives if its parts do
* `Statement.parts_of_ofReadings?` — which they do if what it was read from does
* `Statement.survives_reading` — so all that was read from a finite document survives
* `documents_survive` — flows, statements and patterns are read back from their documents
-/

namespace Dialogue

namespace Statement

/-- A statement is read back from its document, whatever the format. -/
def Survives (number : Float → Json) (s : Statement) : Prop :=
  ∀ f, (reading f (s.toJsonWith number)).statement = some s

/-- All that a part of a document was read as survives. -/
structure Reading.Survives (number : Float → Json) (r : Reading) : Prop where
  /-- As a statement. -/
  statement : ∀ s ∈ r.statement, s.Survives number
  /-- As a body. -/
  body : ∀ b ∈ r.body, ∀ s ∈ b, s.Survives number
  /-- As the branches of a choice. -/
  branches : ∀ bs ∈ r.branches, ∀ b ∈ bs, ∀ s ∈ b, s.Survives number

variable {number : Float → Json} {f : Format}

/-! ## Parts -/

theorem json_reading (j : Json) : (reading f j).json = j := by
  cases j <;> simp only [reading]

theorem itemReadings_eq_map (js : List Json) : itemReadings f js = js.map (reading f) := by
  induction js with
  | nil => rfl
  | cons j js ih => rw [itemReadings, ih, List.map_cons]

theorem memberReadings_eq_map (ms : List (String × Json)) :
    memberReadings f ms = ms.map fun m => (m.1, reading f m.2) := by
  induction ms with
  | nil => rfl
  | cons m ms ih => rw [memberReadings, ih, List.map_cons]

theorem fields_memberReadings (ms : List (String × Json)) : (memberReadings f ms).fields = ms := by
  rw [memberReadings_eq_map, Readings.fields, List.map_map]
  refine (List.map_congr_left fun m _ => ?_).trans (List.map_id ms)
  exact congrArg (Prod.mk m.1) (json_reading m.2)

theorem lookup_memberReadings (name : String) (ms : List (String × Json)) :
    List.lookup name (memberReadings f ms) = (List.lookup name ms).map (reading f) := by
  induction ms with
  | nil => rfl
  | cons m ms ih =>
    rw [memberReadings, List.lookup_cons, List.lookup_cons, ih]
    cases name == m.1 <;> rfl

theorem bodyToJson_eq_map (b : List Statement) :
    bodyToJson number b = b.map (toJsonWith number) := by
  induction b with
  | nil => rfl
  | cons s b ih => rw [bodyToJson, ih, List.map_cons, toJsonWith]

theorem branchesToJson_eq_map (bs : List (List Statement)) :
    branchesToJson number bs = bs.map fun b => .array (bodyToJson number b) := by
  induction bs with
  | nil => rfl
  | cons b bs ih => rw [branchesToJson, ih, List.map_cons]

theorem body_reading {b : List Statement} (h : ∀ s ∈ b, s.Survives number) :
    (reading f (.array (bodyToJson number b))).body = some b := by
  rw [reading, itemReadings_eq_map, bodyToJson_eq_map, List.map_map]
  exact Json.mapM_map_eq_some fun s mem => h s mem f

theorem branches_reading {bs : List (List Statement)}
    (h : ∀ b ∈ bs, ∀ s ∈ b, s.Survives number) :
    (reading f (.array (branchesToJson number bs))).branches = some bs := by
  rw [reading, itemReadings_eq_map, branchesToJson_eq_map, List.map_map]
  exact Json.mapM_map_eq_some fun b mem => body_reading (h b mem)

/-! ## Fields of statements -/

theorem isNamed_handlerMember? {h : Option (List Statement)} :
    Json.IsNamed "on_failure" (handlerMember? number h) := by
  cases h <;> simp [handlerMember?, Json.IsNamed, Json.present]

/-- The members of a statement are written under the names of its fields, in their order. -/
theorem isNamed_toMembers (number : Float → Json) (s : Statement) :
    List.Forall₂ Json.IsNamed (fieldNames s.kind) (s.toMembers number) := by
  cases s <;>
    simp [kind, fieldNames, toMembers, Pattern.isNamed_toMembers, Json.isNamed_omitIf,
      Json.isNamed_map, isNamed_handlerMember?]

theorem nodup_fieldNames (kind : String) : ("type" :: fieldNames kind).Nodup := by
  unfold fieldNames
  split <;> decide

theorem kindOfTag?_string (kind : String) : kindOfTag? f (.string kind) = some kind := by
  cases f <;> rfl

/-- The fields of a statement as they are read from its document. -/
structure Readings.AreOf (number : Float → Json) (f : Format) (s : Statement) (rs : Readings) :
    Prop where
  /-- They are the members that were written. -/
  fields_eq : rs.fields = (s.toMembers number).filterMap id
  /-- Each of them is found under its name. -/
  find?_eq (i : Nat) {name : String} {m : Option (String × Json)} :
    (fieldNames s.kind)[i]? = some name → (s.toMembers number)[i]? = some m →
      rs.fields.find? name = m.map Prod.snd
  /-- So is its reading. -/
  lookup_eq (i : Nat) {name : String} {m : Option (String × Json)} :
    (fieldNames s.kind)[i]? = some name → (s.toMembers number)[i]? = some m →
      List.lookup name rs = (m.map Prod.snd).map (reading f)

theorem areOf_memberReadings (s : Statement) :
    (memberReadings f ((s.toMembers number).filterMap id)).AreOf number f s := by
  have named := isNamed_toMembers number s
  have once := (nodup_fieldNames s.kind).of_cons
  refine ⟨fields_memberReadings _, fun i name m hi hm => ?_, fun i name m hi hm => ?_⟩
  · rw [fields_memberReadings, Json.Fields.find?, Json.lookup_members named once i hi hm]
  · rw [lookup_memberReadings, Json.lookup_members named once i hi hm]

/-- A statement survives if it is read back from its fields. -/
theorem survives_of_areOf {s : Statement}
    (h : ∀ (f : Format) (rs : Readings), rs.AreOf number f s → ofReadings? s.kind rs = some s) :
    s.Survives number := by
  intro f
  -- The tag comes first, and no field has its name, so all other members are fields.
  let rs := memberReadings f ((s.toMembers number).filterMap id)
  obtain ⟨noType, once⟩ := List.nodup_cons.1 (nodup_fieldNames s.kind)
  have sub := Json.keys_sublist (isNamed_toMembers number s)
  have keys : rs.map Prod.fst = ((s.toMembers number).filterMap id).map Prod.fst := by
    rw [← (areOf_memberReadings (f := f) s).fields_eq, Readings.fields, List.map_map]
    rfl
  have known : ∀ m ∈ rs, m.1 ∈ fieldNames s.kind := fun m mem =>
    sub.subset (keys ▸ List.mem_map_of_mem mem)
  have types : rs.filter (fun m => m.1 == "type") = [] :=
    List.filter_eq_nil_iff.2 fun m mem same => noType (beq_iff_eq.1 same ▸ known m mem)
  have others : rs.filter (fun m => m.1 != "type" && (fieldNames s.kind).contains m.1) = rs :=
    List.filter_eq_self.2 fun m mem => by
      have other : m.1 ≠ "type" := fun same => noType (same ▸ known m mem)
      simp [other, known m mem]
  have distinct : (rs.map Prod.fst).Nodup := keys ▸ sub.nodup once
  have tagged : (reading f (s.toJsonWith number)).statement =
      ofMembers? f (("type", reading f (.string s.kind)) :: rs) := by
    rw [toJsonWith, Json.members, reading]
    rfl
  rw [tagged, ofMembers?]
  simp only [List.filter_cons, beq_self_eq_true, ↓reduceIte, types, json_reading,
    kindOfTag?_string, Option.bind_eq_bind, Option.bind_some, bne_self_eq_false, Bool.false_and,
    Bool.false_eq_true, others, distinct]
  exact h f rs (areOf_memberReadings s)

/-! ## From the fields to the statement -/

/-- The parts of a statement that have to survive for the statement to survive. -/
def PartsSurvive (number : Float → Json) : Statement → Prop
  | expect pattern => pattern.Survives number
  | send _ params => ∀ e ∈ params.entries, e.2.Survives number
  | start _ args _ => ∀ e ∈ args.entries, e.2.Survives number
  | await _ args onFailure =>
    (∀ e ∈ args.entries, e.2.Survives number) ∧ ∀ b ∈ onFailure, ∀ s ∈ b, s.Survives number
  | sequence body | loop body => ∀ s ∈ body, s.Survives number
  | alternative branches => ∀ b ∈ branches, ∀ s ∈ b, s.Survives number
  | waitAny branches timeout onTimeout =>
    (∀ b ∈ branches, ∀ s ∈ b, s.Survives number) ∧
      (∀ x ∈ timeout, (number x).asFloat? = some x) ∧ ∀ s ∈ onTimeout, s.Survives number
  | branch condition thenBody elseBody =>
    Condition.ofJson? (.string condition.source) = some condition ∧
      (∀ s ∈ thenBody, s.Survives number) ∧ ∀ s ∈ elseBody, s.Survives number
  | assign _ value _ => value.Survives number
  | execute _ params _ onFailure =>
    (∀ e ∈ params.entries, e.2.Survives number) ∧ ∀ b ∈ onFailure, ∀ s ∈ b, s.Survives number
  | abort _ => True

section Kinds

variable {rs : Readings} {name : String} {args : Table String Expr}
  {body : List Statement} {branches : List (List Statement)}
  {handler : Option (List Statement)}

theorem arguments?_eq {fs : Json.Fields} (survive : ∀ e ∈ args.entries, e.2.Survives number)
    (found : fs.find? name =
      (Json.omitIf args.isEmpty name (argumentsToJson number args)).map Prod.snd) :
    arguments? fs name = some args :=
  Json.Fields.optional?_eq found (fun _ => asTable?_params survive) Table.eq_empty

theorem body?_eq (survive : ∀ s ∈ body, s.Survives number)
    (found : List.lookup name rs =
      ((Json.present name (.array (bodyToJson number body))).map Prod.snd).map (reading f)) :
    rs.body? name = some body := by
  rw [Readings.body?, found, Json.present, Option.map_some, Option.map_some, Option.bind_some,
    body_reading survive]

theorem branches?_eq (survive : ∀ b ∈ branches, ∀ s ∈ b, s.Survives number)
    (found : List.lookup name rs =
      ((Json.present name (.array (branchesToJson number branches))).map Prod.snd).map
        (reading f)) : rs.branches? name = some branches := by
  rw [Readings.branches?, found, Json.present, Option.map_some, Option.map_some,
    Option.bind_some, branches_reading survive]

theorem optionalBody?_eq (survive : ∀ s ∈ body, s.Survives number)
    (found : List.lookup name rs =
      ((Json.omitIf body.isEmpty name (.array (bodyToJson number body))).map Prod.snd).map
        (reading f)) : rs.optionalBody? name = some body := by
  rw [Readings.optionalBody?, found]
  cases body with
  | nil => rfl
  | cons s rest => exact body_reading survive

theorem optionalBody?_eq_of_present (survive : ∀ s ∈ body, s.Survives number)
    (found : List.lookup name rs =
      ((Json.present name (.array (bodyToJson number body))).map Prod.snd).map (reading f)) :
    rs.optionalBody? name = some body := by
  rw [Readings.optionalBody?, found]
  exact body_reading survive

/-- An empty handler is written as such, and is read back as a handler. -/
theorem handler?_eq (survive : ∀ b ∈ handler, ∀ s ∈ b, s.Survives number)
    (found : List.lookup name rs =
      ((handlerMember? number handler).map Prod.snd).map (reading f)) :
    rs.handler? name = some handler := by
  rw [Readings.handler?, found]
  cases handler with
  | none => rfl
  | some b =>
    have back := body_reading (f := f) (survive b rfl)
    simp only [handlerMember?, Json.present, Option.map_some, json_reading, back]

theorem timeout?_eq {fs : Json.Fields} {timeout : Option Float}
    (carried : ∀ x ∈ timeout, (number x).asFloat? = some x)
    (found : fs.find? name = (timeout.map fun x => (name, number x)).map Prod.snd) :
    fs.nullable? name Json.asFloat? = some timeout := by
  refine Json.Fields.nullable?_eq found fun x mem => ?_
  have carried := carried x mem
  refine ⟨fun null => ?_, carried⟩
  rw [null] at carried
  cases carried

/-- A statement survives if its parts do. -/
theorem survives_of_parts {s : Statement} (parts : s.PartsSurvive number) : s.Survives number := by
  refine survives_of_areOf fun f rs read => ?_
  -- Each field is read back on its own, and then the statement is put together from them.
  cases s with
  | expect pattern =>
    have pattern : Pattern.ofJson? (.object rs.fields) = some pattern := read.fields_eq ▸ parts
    simp only [kind, ofReadings?, pattern, Option.bind_eq_bind, Option.bind_some]
    rfl
  | send event params =>
    have event := Json.Fields.text_eq (read.find?_eq 0 rfl rfl)
    have params := arguments?_eq parts (read.find?_eq 1 rfl rfl)
    simp only [kind, ofReadings?, event, params, Option.bind_eq_bind, Option.bind_some]
    rfl
  | start flow args isDetached =>
    have flow := Json.Fields.text_eq (read.find?_eq 0 rfl rfl)
    have args := arguments?_eq parts (read.find?_eq 1 rfl rfl)
    have isDetached := Json.Fields.flag_eq (read.find?_eq 2 rfl rfl)
    simp only [kind, ofReadings?, flow, args, isDetached, Option.bind_eq_bind, Option.bind_some]
    rfl
  | await flow args onFailure =>
    have flow := Json.Fields.text_eq (read.find?_eq 0 rfl rfl)
    have args := arguments?_eq parts.1 (read.find?_eq 1 rfl rfl)
    have onFailure := handler?_eq parts.2 (read.lookup_eq 2 rfl rfl)
    simp only [kind, ofReadings?, flow, args, onFailure, Option.bind_eq_bind, Option.bind_some]
    rfl
  | sequence body | loop body =>
    have body := body?_eq parts (read.lookup_eq 0 rfl rfl)
    simp only [kind, ofReadings?, body, Option.bind_eq_bind, Option.bind_some]
    rfl
  | alternative branches =>
    have branches := branches?_eq parts (read.lookup_eq 0 rfl rfl)
    simp only [kind, ofReadings?, branches, Option.bind_eq_bind, Option.bind_some]
    rfl
  | waitAny branches timeout onTimeout =>
    obtain ⟨choice, carried, given⟩ := parts
    have branches := branches?_eq choice (read.lookup_eq 0 rfl rfl)
    have timeout := timeout?_eq carried (read.find?_eq 1 rfl rfl)
    have onTimeout := optionalBody?_eq given (read.lookup_eq 2 rfl rfl)
    simp only [kind, ofReadings?, branches, timeout, onTimeout, Option.bind_eq_bind,
      Option.bind_some]
    rfl
  | branch condition thenBody elseBody =>
    obtain ⟨kept, first, second⟩ := parts
    have condition := Json.Fields.required?_eq (read.find?_eq 0 rfl rfl) kept
    have thenBody := optionalBody?_eq_of_present first (read.lookup_eq 1 rfl rfl)
    have elseBody := optionalBody?_eq second (read.lookup_eq 2 rfl rfl)
    simp only [kind, ofReadings?, condition, thenBody, elseBody, Option.bind_eq_bind,
      Option.bind_some]
    rfl
  | assign var value isGlobal =>
    have var := Json.Fields.text_eq (read.find?_eq 0 rfl rfl)
    have value : rs.fields.required? "value" (fun j => some (Expr.ofValue (Value.ofJson j))) =
        some value := Json.Fields.required?_eq (read.find?_eq 1 rfl rfl) (congrArg some parts)
    have isGlobal := Json.Fields.flag_eq (read.find?_eq 2 rfl rfl)
    simp only [kind, ofReadings?, var, value, isGlobal, Option.bind_eq_bind, Option.bind_some]
    rfl
  | execute action params result onFailure =>
    have action := Json.Fields.text_eq (read.find?_eq 0 rfl rfl)
    have params := arguments?_eq parts.1 (read.find?_eq 1 rfl rfl)
    have result : rs.fields.nullable? "result" Json.asString? = some result :=
      Json.Fields.nullable?_eq (read.find?_eq 2 rfl rfl) fun _ _ => ⟨nofun, rfl⟩
    have onFailure := handler?_eq parts.2 (read.lookup_eq 3 rfl rfl)
    simp only [kind, ofReadings?, action, params, result, onFailure, Option.bind_eq_bind,
      Option.bind_some]
    rfl
  | abort reason =>
    have reason : rs.fields.optional? "reason" Json.asString? "" = some reason :=
      Json.Fields.optional?_eq_of_present (read.find?_eq 0 rfl rfl) rfl
    simp only [kind, ofReadings?, reason, Option.bind_eq_bind, Option.bind_some]
    rfl

end Kinds

/-! ## What has been read -/

section Read

variable {rs : Readings} {name : String}

theorem survive_of_arguments? (carries : Json.CarriesFinite number) {fs : Json.Fields}
    (finite : Json.MembersFinite fs) {args : Table String Expr}
    (h : arguments? fs name = some args) : ∀ e ∈ args.entries, e.2.Survives number := by
  intro e mem
  obtain ⟨i, finite, same⟩ := Json.Fields.exists_of_optional? finite h mem
  exact Option.some.inj same ▸ Expr.survives_ofJson carries finite

variable (survive : ∀ m ∈ rs, m.2.Survives number)

include survive

theorem survive_of_body? {body : List Statement} (h : rs.body? name = some body) :
    ∀ s ∈ body, s.Survives number := by
  obtain ⟨r, found, eq⟩ := Option.bind_eq_some_iff.1 h
  exact (survive _ (Json.Fields.mem_of_lookup found)).body body eq

theorem survive_of_branches? {branches : List (List Statement)}
    (h : rs.branches? name = some branches) : ∀ b ∈ branches, ∀ s ∈ b, s.Survives number := by
  obtain ⟨r, found, eq⟩ := Option.bind_eq_some_iff.1 h
  exact (survive _ (Json.Fields.mem_of_lookup found)).branches branches eq

theorem survive_of_optionalBody? {body : List Statement} (h : rs.optionalBody? name = some body) :
    ∀ s ∈ body, s.Survives number := by
  unfold Readings.optionalBody? at h
  split at h
  · obtain rfl := Option.some.inj h
    exact nofun
  · next r found => exact (survive _ (Json.Fields.mem_of_lookup found)).body body h

theorem survive_of_handler? {handler : Option (List Statement)}
    (h : rs.handler? name = some handler) : ∀ b ∈ handler, ∀ s ∈ b, s.Survives number := by
  unfold Readings.handler? at h
  split at h
  · obtain rfl := Option.some.inj h
    exact nofun
  · next r found =>
    split at h
    · obtain rfl := Option.some.inj h
      exact nofun
    · obtain ⟨body, eq, rfl⟩ := Option.map_eq_some_iff.1 h
      exact fun b mem => (survive _ (Json.Fields.mem_of_lookup found)).body b (eq.trans mem)

/-- The parts of a statement survive if what it was read from is finite and survives. -/
theorem parts_of_ofReadings? (carries : Json.CarriesFinite number)
    (finite : Json.MembersFinite rs.fields) {kind : String} {s : Statement}
    (h : ofReadings? kind rs = some s) : s.PartsSurvive number := by
  unfold ofReadings? at h
  split at h
  all_goals simp only [Option.bind_eq_bind, Option.bind_eq_some_iff, Option.pure_def,
      Option.some.injEq] at h
  -- The cases stand in the order of `kinds`; the last one is that of any other name.
  case h_1 =>
    obtain ⟨pattern, read, rfl⟩ := h
    have finite : (Json.object rs.fields).IsFinite := by rwa [Json.IsFinite]
    exact Pattern.survives_of_ofJson? carries finite read
  case h_2 =>
    obtain ⟨event, -, params, hp, rfl⟩ := h
    exact survive_of_arguments? carries finite hp
  case h_3 =>
    obtain ⟨flow, -, args, ha, isDetached, -, rfl⟩ := h
    exact survive_of_arguments? carries finite ha
  case h_4 =>
    obtain ⟨flow, -, args, ha, onFailure, hf, rfl⟩ := h
    exact ⟨survive_of_arguments? carries finite ha, survive_of_handler? survive hf⟩
  case h_5 =>
    obtain ⟨body, hb, rfl⟩ := h
    exact survive_of_body? survive hb
  case h_6 =>
    obtain ⟨branches, hb, rfl⟩ := h
    exact survive_of_branches? survive hb
  case h_7 =>
    obtain ⟨body, hb, rfl⟩ := h
    exact survive_of_body? survive hb
  case h_8 =>
    obtain ⟨branches, hb, timeout, ht, onTimeout, ho, rfl⟩ := h
    exact ⟨survive_of_branches? survive hb,
      fun x mem => carries x (Json.Fields.isFinite_of_nullable? finite ht mem),
      survive_of_optionalBody? survive ho⟩
  case h_9 =>
    obtain ⟨condition, hc, thenBody, ht, elseBody, he, rfl⟩ := h
    obtain ⟨j, -, read⟩ := Option.bind_eq_some_iff.1 hc
    exact ⟨Condition.ofJson?_source read, survive_of_optionalBody? survive ht,
      survive_of_optionalBody? survive he⟩
  case h_10 =>
    obtain ⟨var, -, value, hv, isGlobal, -, rfl⟩ := h
    obtain ⟨j, found, same⟩ := Option.bind_eq_some_iff.1 hv
    obtain rfl := Option.some.inj same
    exact Expr.survives_ofJson carries (Json.Fields.isFinite_of_find? finite found)
  case h_11 =>
    obtain ⟨action, -, params, hp, result, -, onFailure, hf, rfl⟩ := h
    exact ⟨survive_of_arguments? carries finite hp, survive_of_handler? survive hf⟩
  case h_12 =>
    obtain ⟨reason, -, rfl⟩ := h
    trivial
  case h_13 => cases h

end Read

theorem membersFinite_fields {rs : Readings} :
    Json.MembersFinite rs.fields ↔ ∀ m ∈ rs, m.2.json.IsFinite := by
  rw [Json.membersFinite_iff, Readings.fields, List.forall_mem_map]

theorem survives_of_ofMembers? (carries : Json.CarriesFinite number) {ms : Readings}
    (finite : ∀ m ∈ ms, m.2.json.IsFinite) (parts : ∀ m ∈ ms, m.2.Survives number) {s : Statement}
    (h : ofMembers? f ms = some s) : s.Survives number := by
  unfold ofMembers? at h
  dsimp only at h
  split at h
  · next key r =>
    obtain ⟨kind, -, h⟩ := Option.bind_eq_some_iff.1 h
    obtain ⟨-, read⟩ := Option.ite_none_right_eq_some.1 h
    refine survives_of_parts (parts_of_ofReadings? ?_ carries (membersFinite_fields.2 ?_) read)
    · exact fun m mem => parts m (List.mem_of_mem_filter mem)
    · exact fun m mem => finite m (List.mem_of_mem_filter mem)
  · cases h

theorem survives_of_ofItems? (carries : Json.CarriesFinite number) {rs : List Reading}
    (finite : ∀ r ∈ rs, r.json.IsFinite) (parts : ∀ r ∈ rs, r.Survives number) {s : Statement}
    (h : ofItems? f rs = some s) : s.Survives number := by
  unfold ofItems? at h
  split at h
  · next r rest =>
    obtain ⟨kind, -, h⟩ := Option.bind_eq_some_iff.1 h
    obtain ⟨-, read⟩ := Option.ite_none_right_eq_some.1 h
    have among {m : String × Reading} (mem : m ∈ (fieldNames kind).zip rest) : m.2 ∈ r :: rest :=
      List.mem_cons_of_mem r (List.of_mem_zip mem).2
    refine survives_of_parts (parts_of_ofReadings? ?_ carries (membersFinite_fields.2 ?_) read)
    · exact fun m mem => parts m.2 (among mem)
    · exact fun m mem => finite m.2 (among mem)
  · cases h

mutual

/-- All that was read from a part of a finite document survives. -/
theorem survives_reading (carries : Json.CarriesFinite number) :
    ∀ {j : Json}, j.IsFinite → (reading f j).Survives number
  | .object ms, finite => by
    have survive := survives_memberReadings carries finite
    have parts : ∀ m ∈ memberReadings f ms, m.2.json.IsFinite := by
      rwa [← membersFinite_fields, fields_memberReadings]
    rw [reading]
    exact ⟨fun s read => survives_of_ofMembers? carries parts survive read, nofun, nofun⟩
  | .array js, finite => by
    have survive := survives_itemReadings carries finite
    have parts : ∀ r ∈ itemReadings f js, r.json.IsFinite := by
      rw [itemReadings_eq_map, List.forall_mem_map]
      simpa only [json_reading] using Json.itemsFinite_iff.1 finite
    rw [reading]
    refine ⟨fun s read => survives_of_ofItems? carries parts survive read,
      fun b read s mem => ?_, fun bs read b mem => ?_⟩
    · obtain ⟨r, part, eq⟩ := Json.exists_of_mapM read mem
      exact (survive r part).statement s eq
    · obtain ⟨r, part, eq⟩ := Json.exists_of_mapM read mem
      exact (survive r part).body b eq
  | .null, _ | .bool _, _ | .int _, _ | .float _, _ | .string _, _ => ⟨nofun, nofun, nofun⟩

theorem survives_itemReadings (carries : Json.CarriesFinite number) :
    ∀ {js : List Json}, Json.ItemsFinite js → ∀ r ∈ itemReadings f js, r.Survives number
  | [], _ => nofun
  | j :: js, ⟨first, others⟩ => by
    rw [itemReadings, List.forall_mem_cons]
    exact ⟨survives_reading carries first, survives_itemReadings carries others⟩

theorem survives_memberReadings (carries : Json.CarriesFinite number) :
    ∀ {ms : List (String × Json)}, Json.MembersFinite ms →
      ∀ m ∈ memberReadings f ms, m.2.Survives number
  | [], _ => nofun
  | (k, j) :: ms, ⟨first, others⟩ => by
    rw [memberReadings, List.forall_mem_cons]
    exact ⟨survives_reading carries first, survives_memberReadings carries others⟩

end

theorem isNamed_toJsonWith (s : Statement) : isNamed (s.toJsonWith number) = true := by
  have there : s.toJsonWith number =
      .object (("type", .string s.kind) :: (s.toMembers number).filterMap id) := rfl
  rw [there]
  simp [isNamed, Json.asString?]

/-- A statement that was read from a finite document is read back. -/
theorem ofJson?_toJsonWith {s : Statement} (survives : s.Survives number) (f : Format) :
    ofJson? f (s.toJsonWith number) = some s := by
  rw [ofJson?, if_pos (isNamed_toJsonWith s), survives f]

theorem survives_of_ofJson? (carries : Json.CarriesFinite number) {j : Json} (finite : j.IsFinite)
    {s : Statement} (h : ofJson? f j = some s) : s.Survives number := by
  obtain ⟨-, read⟩ := Option.ite_none_right_eq_some.1 h
  exact (survives_reading carries finite).statement s read

end Statement

namespace FlowDefinition

variable {number : Float → Json} {f : Format} {d : FlowDefinition}

theorem isNamed_toMembers (number : Float → Json) (d : FlowDefinition) :
    List.Forall₂ Json.IsNamed fieldNames (d.toMembers number) := by
  simp [fieldNames, toMembers, Json.isNamed_omitIf]

/-- A flow is read back from its document if its statements are read back from theirs. -/
theorem ofJson?_toJsonWith (survive : ∀ s ∈ d.body, s.Survives number) (f : Format) :
    ofJson? f (d.toJsonWith number) = some d := by
  obtain ⟨fs, record, found⟩ := Json.exists_record? (f := f)
    (isNamed_toMembers number d) (by decide)
  have name := Json.Fields.text_eq (found 0 rfl rfl)
  have parameters : fs.optional? "parameters" (Json.asList? Json.asString?) [] =
      some d.parameters :=
    Json.Fields.optional?_eq (found 1 rfl rfl) (fun _ => Json.asList?_map fun _ _ => rfl)
      List.isEmpty_iff.1
  have description : fs.optional? "description" Json.asString? "" = some d.description :=
    Json.Fields.optional?_eq (found 2 rfl rfl) (fun _ => rfl) String.isEmpty_iff.1
  have body : fs.optional? "body" (Statement.bodyOfJson? f) [] = some d.body := by
    refine Json.Fields.optional?_eq_of_present (found 3 rfl rfl) ?_
    rw [Statement.bodyToJson_eq_map]
    exact Json.asList?_map fun s mem => Statement.ofJson?_toJsonWith (survive s mem) f
  rw [toJsonWith, ofJson?, record]
  simp only [Option.bind_eq_bind, Option.bind_some, name, parameters, description, body]
  rfl

/-- The statements of a flow that was read from a finite document survive. -/
theorem survive_of_ofJson? (carries : Json.CarriesFinite number) {j : Json} (finite : j.IsFinite)
    (h : ofJson? f j = some d) : ∀ s ∈ d.body, s.Survives number := by
  simp only [ofJson?, Option.bind_eq_bind, Option.bind_eq_some_iff] at h
  obtain ⟨fs, record, name, -, parameters, -, description, -, body, read, same⟩ := h
  obtain rfl := Option.some.inj same
  intro s mem
  obtain ⟨i, finite, eq⟩ := Json.Fields.exists_of_optional?_list
    (Json.membersFinite_of_record? finite record) read mem
  exact Statement.survives_of_ofJson? carries finite eq

end FlowDefinition

/-- A flow, a statement or a pattern that was read from a document is read back, as it is, from the
document that it is written as. Documents have finite numbers only, and the writer of numbers has to
carry these. -/
theorem documents_survive (number : Float → Json) (carries : Json.CarriesFinite number)
    (f f' : Format) (j : Json) (finite : j.IsFinite) :
    (∀ d, FlowDefinition.ofJson? f j = some d →
        FlowDefinition.ofJson? f' (d.toJsonWith number) = some d) ∧
      (∀ s, Statement.ofJson? f j = some s →
        Statement.ofJson? f' (s.toJsonWith number) = some s) ∧
      ∀ p, Pattern.ofJson? j = some p → Pattern.ofJson? (p.toJsonWith number) = some p := by
  refine ⟨fun d h => ?_, fun s h => ?_, fun p h => ?_⟩
  · exact FlowDefinition.ofJson?_toJsonWith (FlowDefinition.survive_of_ofJson? carries finite h) f'
  · exact Statement.ofJson?_toJsonWith (Statement.survives_of_ofJson? carries finite h) f'
  · exact Pattern.survives_of_ofJson? carries finite h

/-- The document of a flow with a handler that does nothing, and with a choice that has no time
limit inside one that has. -/
def patientFlow : Json :=
  .object [("name", .string "patient"), ("body", .array [
    .object [("type", .string "await"), ("flow", .string "greeting"), ("on_failure", .array []),
      ("args", .object [("names", .array [.string "$first", .string "\x7b$last\x7d!", .int 3])])],
    .object [("type", .string "wait_any"), ("timeout", .float 2.5), ("branches", .array [.array [
      .object [("type", .string "match"), ("event", .string "UserSaid"),
        ("params", .object [("text", .string "$wanted")])],
      .object [("type", .string "wait_any"), ("branches", .array [])],
      .object [("type", .string "if"), ("condition", .string " $first AND NOT $last ")]]])]])]

theorem documents_survive_patientFlow :
    Json.CarriesFinite .float ∧ patientFlow.IsFinite ∧
      ∃ d, FlowDefinition.ofJson? .json patientFlow = some d ∧
        FlowDefinition.ofJson? .toml (d.toJsonWith .float) = some d := by
  have carries : Json.CarriesFinite .float := fun _ _ => rfl
  have finite : patientFlow.IsFinite := by
    simp only [patientFlow, Json.IsFinite, Json.ItemsFinite, Json.MembersFinite]
    decide +kernel
  have read : (FlowDefinition.ofJson? .json patientFlow).isSome = true := by decide +kernel
  obtain ⟨d, read⟩ := Option.isSome_iff_exists.1 read
  exact ⟨carries, finite, d, read,
    (documents_survive .float carries .json .toml patientFlow finite).1 d read⟩

end Dialogue
