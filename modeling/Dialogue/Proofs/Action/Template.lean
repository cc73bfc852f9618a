import Dialogue.Action.Template
import Dialogue.Proofs.Table
import Mathlib.Data.List.Forall2

/-!
# Writing and filling templates

A template is written piece by piece: the braces of a literal text are doubled, and the key of a
placeholder is put between single braces. When the template is filled, the pieces are found again.
A literal text ends where no brace is doubled any more, whatever comes behind it, because the braces
of a literal text come in pairs; and a placeholder ends at its own brace, because there is none in
its key.

## Main definitions

* `Template.Key`, `Template.Piece` — what a template is made of
* `Template.write` — the template of a list of pieces
* `Template.Piece.Shows` — what becomes of a piece

## Main results

* `Template.fillList_doubled`, `Template.fillList_enclosed` — a piece with a template behind it
* `Template.fill_write` — filling finds the pieces again that a template was written from
-/

namespace Dialogue.Template

/-! ## Pieces -/

/-- A key as it stands between the braces of a placeholder. A closing brace in it would end the
placeholder, and an opening brace in front would double the one before it. -/
structure Key where
  /-- The key as it is written. -/
  text : String
  unclosed : '\x7d' ∉ text.toList
  undoubled : text.toList.head? ≠ some '\x7b'

/-- The parameter that a key stands for. Blanks around a key do not count. -/
def Key.name (k : Key) : String := Text.trim k.text

/-- A piece of a template. -/
inductive Piece where
  /-- A text that is shown as it is. -/
  | literal (text : String)
  /-- A place for the value of a parameter. -/
  | placeholder (key : Key)

/-- A literal text as it is written, with every brace doubled. -/
def doubled (cs : List Char) : List Char :=
  cs.flatMap fun c => if c = '\x7b' ∨ c = '\x7d' then [c, c] else [c]

/-- A key as it is written, between braces. -/
def enclosed (key : List Char) : List Char := '\x7b' :: (key ++ ['\x7d'])

/-- A piece as it is written. -/
def Piece.written : Piece → List Char
  | literal text => doubled text.toList
  | placeholder key => enclosed key.text.toList

/-- The template of a list of pieces. -/
def write (ps : List Piece) : String := String.ofList (ps.flatMap Piece.written)

/-- The text that a piece shows: its own text, or the value of the parameter that its key stands
for. -/
inductive Piece.Shows (params : Params) : Piece → String → Prop
  | literal (text : String) : Shows params (.literal text) text
  | placeholder {key : Key} {v : Value} (given : params.get? key.name = some v) :
    Shows params (.placeholder key) v.render

variable {params : Params} {ps : List Piece}

/-! ## Filling one piece -/

/-- A literal text is read back from its doubled braces, whatever comes behind it. -/
theorem fillList_doubled (params : Params) (cs rest : List Char) :
    fillList params (doubled cs ++ rest) = (fillList params rest).map (cs ++ ·) := by
  induction cs with
  | nil => cases h : fillList params rest <;> simp [doubled, h, Except.map]
  | cons c cs ih =>
    have first : fillList params (doubled (c :: cs) ++ rest) =
        (fillList params (doubled cs ++ rest)).map (c :: ·) := by
      -- A brace is taken together with its double, so nothing behind the two is looked at.
      by_cases opening : c = '\x7b'
      · subst opening
        simp [doubled, fillList]
      by_cases closing : c = '\x7d'
      · subst closing
        simp [doubled, fillList]
      · simp [doubled, opening, closing, fillList]
    rw [first, ih]
    cases fillList params rest <;> rfl

/-- A placeholder is replaced by the value of its parameter, whatever comes behind it. -/
theorem fillList_enclosed (params : Params) (k : Key) (rest : List Char) :
    fillList params (enclosed k.text.toList ++ rest) =
      match params.get? k.name with
      | none => .error (missing k.text.toList)
      | some v => (fillList params rest).map (v.render.toList ++ ·) := by
  have inside : ∀ c ∈ k.text.toList, (c != '\x7d') = true := fun c mem =>
    bne_iff_ne.2 fun same => k.unclosed (same ▸ mem)
  -- The brace in front of the key is not taken for one half of a doubled brace.
  have single : ∀ behind, k.text.toList ++ '\x7d' :: rest ≠ '\x7b' :: behind := by
    intro behind same
    have undoubled := k.undoubled
    cases key : k.text.toList with
    | nil => simp [key] at same
    | cons c cs =>
      rw [key] at same undoubled
      exact undoubled (congrArg some (List.cons.inj same).1)
  rw [enclosed, List.cons_append, List.append_assoc, List.singleton_append, fillList]
  · have taken : (k.text.toList ++ '\x7d' :: rest).takeWhile (· != '\x7d') = k.text.toList := by
      simp [List.takeWhile_append_of_pos inside]
    have left : ((k.text.toList ++ '\x7d' :: rest).dropWhile (· != '\x7d')).drop 1 = rest := by
      simp [List.dropWhile_append_of_pos inside]
    rw [Key.name]
    cases given : params.get? (Text.trim k.text) with
    | none => simp [taken, given]
    | some v => simp [taken, left, given]
  · exact single

/-- What a piece shows is put in front of what comes behind it. -/
theorem fillList_of_shows {p : Piece} {text : String} (shown : p.Shows params text)
    (rest : List Char) :
    fillList params (p.written ++ rest) = (fillList params rest).map (text.toList ++ ·) := by
  cases shown with
  | literal => exact fillList_doubled params text.toList rest
  | placeholder given => rw [Piece.written, fillList_enclosed, given]

theorem fillList_of_missing {k : Key} (absent : params.contains k.name = false)
    (rest : List Char) :
    fillList params ((Piece.placeholder k).written ++ rest) = .error (missing k.text.toList) := by
  have none_eq : params.get? k.name = none := by simpa [Table.contains] using absent
  rw [Piece.written, fillList_enclosed, none_eq]

/-! ## Filling all pieces -/

/-- Every key of the pieces is, without the blanks around it, the name of a parameter. -/
def AllGiven (params : Params) (ps : List Piece) : Prop :=
  ∀ k, .placeholder k ∈ ps → params.contains k.name = true

theorem allGiven_cons_iff {p : Piece} :
    AllGiven params (p :: ps) ↔ (∃ text, p.Shows params text) ∧ AllGiven params ps := by
  cases p with
  | literal text => simpa [AllGiven] using fun _ => ⟨text, .literal text⟩
  | placeholder k =>
    have first : (∃ text, (Piece.placeholder k).Shows params text) ↔
        params.contains k.name = true := by
      rw [Table.contains, Option.isSome_iff_exists]
      constructor
      · rintro ⟨_, ⟨⟩ | given⟩
        exact ⟨_, given⟩
      · rintro ⟨_, given⟩
        exact ⟨_, .placeholder given⟩
    simp [AllGiven, first, or_imp, forall_and]

theorem allGiven_iff :
    AllGiven params ps ↔ ∃ texts, List.Forall₂ (Piece.Shows params) ps texts := by
  induction ps with
  | nil => exact iff_of_true nofun ⟨[], .nil⟩
  | cons p rest ih =>
    rw [allGiven_cons_iff, ih]
    constructor
    · rintro ⟨⟨text, first⟩, texts, others⟩
      exact ⟨text :: texts, .cons first others⟩
    · rintro ⟨texts, shown⟩
      cases shown with
      | cons first others => exact ⟨⟨_, first⟩, _, others⟩

/-- What the pieces show is put in front of what comes behind them. -/
theorem fillList_of_forall₂ {texts : List String} (h : List.Forall₂ (Piece.Shows params) ps texts)
    (rest : List Char) : fillList params (ps.flatMap Piece.written ++ rest) =
      (fillList params rest).map ((String.join texts).toList ++ ·) := by
  induction h with
  | nil => cases h : fillList params rest <;> simp [h, Except.map]
  | cons first _ ih =>
    rw [List.flatMap_cons, List.append_assoc, fillList_of_shows first, ih]
    cases fillList params rest <;> simp [Except.map]

theorem fill_write_of_missing {pre post : List Piece} {k : Key} (given : AllGiven params pre)
    (absent : params.contains k.name = false) :
    fill (write (pre ++ .placeholder k :: post)) params = .error (missing k.text.toList) := by
  obtain ⟨texts, shown⟩ := allGiven_iff.1 given
  rw [fill, write, String.toList_ofList, List.flatMap_append, List.flatMap_cons,
    fillList_of_forall₂ shown, fillList_of_missing absent]
  rfl

/-- Either all keys have a value, or there is a first one that has none. -/
theorem allGiven_or_missing (params : Params) (ps : List Piece) : AllGiven params ps ∨
    ∃ pre k post, ps = pre ++ .placeholder k :: post ∧ AllGiven params pre ∧
      params.contains k.name = false := by
  induction ps with
  | nil => exact .inl nofun
  | cons p rest ih =>
    by_cases first : ∃ text, p.Shows params text
    · rcases ih with others | ⟨pre, k, post, rfl, before, absent⟩
      · exact .inl (allGiven_cons_iff.2 ⟨first, others⟩)
      · exact .inr ⟨p :: pre, k, post, rfl, allGiven_cons_iff.2 ⟨first, before⟩, absent⟩
    · cases p with
      | literal text => exact absurd ⟨text, .literal text⟩ first
      | placeholder k =>
        refine .inr ⟨[], k, rest, rfl, nofun, ?_⟩
        simp only [Table.contains, Option.isSome_eq_false_iff, Option.isNone_iff_eq_none,
          Option.eq_none_iff_forall_ne_some]
        exact fun v given => first ⟨_, .placeholder given⟩

theorem fill_write_eq_ok_iff {out : String} : fill (write ps) params = .ok out ↔
    ∃ texts, List.Forall₂ (Piece.Shows params) ps texts ∧ String.join texts = out := by
  have filled {texts : List String} (shown : List.Forall₂ (Piece.Shows params) ps texts) :
      fill (write ps) params = .ok (String.join texts) := by
    have all := fillList_of_forall₂ shown []
    rw [List.append_nil] at all
    rw [fill, write, String.toList_ofList, all, fillList]
    simp only [Except.map, List.append_nil, String.ofList_toList]
  constructor
  · intro h
    rcases allGiven_or_missing params ps with given | ⟨pre, k, post, rfl, given, absent⟩
    · obtain ⟨texts, shown⟩ := allGiven_iff.1 given
      exact ⟨texts, shown, Except.ok.inj ((filled shown).symm.trans h)⟩
    · rw [fill_write_of_missing given absent] at h
      cases h
  · rintro ⟨texts, shown, rfl⟩
    exact filled shown

theorem fill_write_eq_error_iff {e : ActionError} : fill (write ps) params = .error e ↔
    ∃ pre k post, ps = pre ++ .placeholder k :: post ∧ AllGiven params pre ∧
      params.contains k.name = false ∧ e = missing k.text.toList := by
  constructor
  · intro h
    rcases allGiven_or_missing params ps with given | ⟨pre, k, post, rfl, given, absent⟩
    · obtain ⟨texts, shown⟩ := allGiven_iff.1 given
      rw [fill_write_eq_ok_iff.2 ⟨texts, shown, rfl⟩] at h
      cases h
    · rw [fill_write_of_missing given absent] at h
      exact ⟨pre, k, post, rfl, given, absent, (Except.error.inj h).symm⟩
  · rintro ⟨pre, k, post, rfl, given, absent, rfl⟩
    exact fill_write_of_missing given absent

/-- A template that was written from pieces can be filled exactly if every key is, without the
blanks around it, the name of a parameter. It is filled with the literal texts and the values of the
parameters, one after the other. Otherwise the error names the first key that has no value. -/
theorem fill_write (ps : List Piece) (params : Params) :
    ((∃ out, fill (write ps) params = .ok out) ↔
        ∀ k, .placeholder k ∈ ps → params.contains k.name = true) ∧
      (∀ out, fill (write ps) params = .ok out ↔
        ∃ texts, List.Forall₂ (Piece.Shows params) ps texts ∧ String.join texts = out) ∧
      ∀ e, fill (write ps) params = .error e ↔
        ∃ pre k post, ps = pre ++ .placeholder k :: post ∧
          (∀ j, .placeholder j ∈ pre → params.contains j.name = true) ∧
          params.contains k.name = false ∧
          e = .invalidArguments ("No value for placeholder '\x7b" ++ k.text ++ "\x7d'") := by
  refine ⟨⟨?_, fun given => ?_⟩, fun out => fill_write_eq_ok_iff, fun e => ?_⟩
  · rintro ⟨out, h⟩
    obtain ⟨texts, shown, -⟩ := fill_write_eq_ok_iff.1 h
    exact allGiven_iff.2 ⟨texts, shown⟩
  · obtain ⟨texts, shown⟩ := allGiven_iff.1 given
    exact ⟨_, fill_write_eq_ok_iff.2 ⟨texts, shown, rfl⟩⟩
  · simp only [fill_write_eq_error_iff, AllGiven, missing, String.ofList_toList]

end Dialogue.Template
