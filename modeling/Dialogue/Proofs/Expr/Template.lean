import Dialogue.Proofs.Variables
import Mathlib.Data.List.Chain

/-!
# Templates

A text is cut from left to right: where a placeholder stands it is taken off as a whole, anywhere
else one character is taken off. So a text is its segments written one after the other, its
variables are the placeholders that stand in it, and a template is filled in one pass, in which
what is filled in is never looked at again.

## Main definitions

* `Segment.StandsAt` — a placeholder stands at a place of a text
* `Segment.segmentsOf` — the segments of a text
* `Segment.AreCanonical` — the form that the segments of a template have
* `Segment.Fills` — a text after every placeholder in it has been replaced

## Main results

* `Segment.scan` — induction along a text, placeholder by placeholder
* `Segment.standsAt_iff` — the variables of a text are the placeholders that stand in it
* `Segment.areCanonical_segmentsOf`
* `Segment.fills_iff` — what the segments of a text are rendered as
-/

namespace Dialogue

namespace Segment

/-! ## Placeholders -/

/-- A placeholder as it is written. -/
def enclosed (name : List Char) : List Char := '\x7b' :: '$' :: (name ++ ['\x7d'])

/-- A placeholder with a proper name stands at a place of a text. -/
def StandsAt (cs : List Char) (i : Nat) (name : List Char) : Prop :=
  isIdentifierList name = true ∧ enclosed name <+: cs.drop i

variable {c : Char} {cs name other rest : List Char} {i : Nat}

theorem ne_of_mem_name (h : isIdentifierList name = true) {brace : Char}
    (special : isIdentifierRest brace = false) : ∀ c ∈ name, c ≠ brace := by
  rintro c mem rfl
  rw [isIdentifierRest_of_isIdentifierList h c mem] at special
  cases special

theorem placeholder?_eq_some_iff :
    placeholder? cs = some (name, rest) ↔
      isIdentifierList name = true ∧ cs = enclosed name ++ rest := by
  constructor
  · intro h
    unfold placeholder? at h
    split at h
    · next cs =>
      -- The name ends in front of the first closing brace.
      have parts := List.takeWhile_append_dropWhile (p := (· != '\x7d')) (l := cs)
      have closed := List.head?_dropWhile_not (· != '\x7d') cs
      split at h
      · next d behind eq =>
        split at h
        · next proper =>
          obtain ⟨rfl, rfl⟩ := Prod.mk.inj (Option.some.inj h)
          rw [eq] at parts closed
          obtain rfl : d = '\x7d' := by simpa using closed
          refine ⟨proper, ?_⟩
          conv => lhs; rw [← parts]
          simp [enclosed]
        · cases h
      · cases h
    · cases h
  · rintro ⟨proper, rfl⟩
    have inside : ∀ c ∈ name, (c != '\x7d') = true := fun c mem =>
      bne_iff_ne.2 (ne_of_mem_name proper rfl c mem)
    simp [enclosed, placeholder?, List.takeWhile_append_of_pos inside,
      List.dropWhile_append_of_pos inside, proper]

theorem placeholder?_enclosed (h : isIdentifierList name = true) (rest : List Char) :
    placeholder? (enclosed name ++ rest) = some (name, rest) :=
  placeholder?_eq_some_iff.2 ⟨h, rfl⟩

theorem standsAt_zero_iff : StandsAt cs 0 name ↔ ∃ rest, placeholder? cs = some (name, rest) := by
  simp only [placeholder?_eq_some_iff, exists_and_left]
  exact and_congr_right fun _ => exists_congr fun rest => eq_comm

theorem not_standsAt_nil (i : Nat) (name : List Char) : ¬StandsAt [] i name := by
  simp [StandsAt, enclosed]

theorem standsAt_succ : StandsAt (c :: cs) (i + 1) name ↔ StandsAt cs i name := Iff.rfl

/-- Only an opening brace begins a placeholder. -/
theorem StandsAt.head (h : StandsAt (c :: cs) 0 name) : c = '\x7b' := by
  obtain ⟨-, rest, eq⟩ := h
  exact (List.cons.inj eq).1.symm

theorem standsAt_append_of_forall_ne {ds : List Char} (plain : ∀ c ∈ ds, c ≠ '\x7b') :
    StandsAt (ds ++ cs) i name ↔ ∃ j, i = ds.length + j ∧ StandsAt cs j name := by
  induction ds generalizing i with
  | nil => simp
  | cons d ds ih =>
    obtain ⟨first, others⟩ := List.forall_mem_cons.1 plain
    cases i with
    | zero =>
      refine ⟨fun h => absurd h.head first, fun ⟨j, eq, _⟩ => ?_⟩
      simp only [List.length_cons] at eq
      omega
    | succ i =>
      rw [List.cons_append, standsAt_succ, ih others, List.length_cons]
      exact exists_congr fun j => and_congr_left fun _ => by omega

/-- Placeholders do not overlap: behind the one that a text begins with, the next one stands in what
is left. -/
theorem standsAt_enclosed (h : isIdentifierList name = true) :
    StandsAt (enclosed name ++ rest) i other ↔
      (i = 0 ∧ other = name) ∨ ∃ j, i = name.length + 3 + j ∧ StandsAt rest j other := by
  cases i with
  | zero =>
    rw [standsAt_zero_iff, placeholder?_enclosed h]
    constructor
    · rintro ⟨behind, eq⟩
      exact .inl ⟨rfl, (Prod.mk.inj (Option.some.inj eq)).1.symm⟩
    · rintro (⟨-, rfl⟩ | ⟨j, eq, -⟩)
      · exact ⟨rest, rfl⟩
      · omega
  | succ i =>
    -- No placeholder begins inside another one, for there is no opening brace in a name.
    have inside : ∀ c ∈ '$' :: (name ++ ['\x7d']), c ≠ '\x7b' := by
      simp only [List.forall_mem_cons, List.forall_mem_append]
      exact ⟨by decide, ne_of_mem_name h rfl, by decide, by simp⟩
    have behind : StandsAt ('$' :: (name ++ ['\x7d']) ++ rest) i other ↔ _ :=
      standsAt_append_of_forall_ne inside
    rw [enclosed, List.cons_append, standsAt_succ, behind]
    simp only [List.length_cons, List.length_append, List.length_nil]
    constructor
    · rintro ⟨j, eq, stands⟩
      exact .inr ⟨j, by omega, stands⟩
    · rintro (⟨eq, -⟩ | ⟨j, eq, stands⟩)
      · cases eq
      · exact ⟨j, by omega, stands⟩

/-- Induction along a text: it begins with a placeholder, or with a character that begins none. -/
theorem scan {P : List Char → Prop} (nil : P [])
    (placeholder : ∀ name rest, isIdentifierList name = true → P rest → P (enclosed name ++ rest))
    (char : ∀ c cs, (∀ name, ¬StandsAt (c :: cs) 0 name) → P cs → P (c :: cs)) (cs : List Char) :
    P cs := by
  fun_induction cut cs with
  | case1 cs name rest found _ _ _ ih =>
    obtain ⟨proper, rfl⟩ := placeholder?_eq_some_iff.1 found
    exact placeholder name rest proper ih
  | case2 => exact nil
  | case3 c cs found _ _ _ ih =>
    refine char c cs (fun name stands => ?_) ih
    obtain ⟨rest, eq⟩ := standsAt_zero_iff.1 stands
    rw [found] at eq
    cases eq

/-! ## Segments -/

/-- The segments of variables, each with the text that follows it. -/
def pieces (parts : List (List Char × List Char)) : List Segment :=
  parts.flatMap fun (name, after) => .var (String.ofList name) :: ofText after

/-- The segments of a text. -/
def segmentsOf (cs : List Char) : List Segment := ofText (cut cs).1 ++ pieces (cut cs).2

theorem parse?_eq (s : String) :
    parse? s = if (cut s.toList).2 = [] then none else some (segmentsOf s.toList) := by
  unfold parse? segmentsOf
  obtain ⟨before, parts⟩ := cut s.toList
  cases parts <;> simp [pieces]

theorem cut_nil : cut [] = ([], []) := by
  rw [cut]
  rfl

theorem cut_enclosed (h : isIdentifierList name = true) (rest : List Char) :
    cut (enclosed name ++ rest) = ([], (name, (cut rest).1) :: (cut rest).2) := by
  rw [cut]
  split
  · next found =>
    rw [placeholder?_enclosed h] at found
    obtain ⟨rfl, rfl⟩ := Prod.mk.inj (Option.some.inj found)
    rfl
  · next found =>
    rw [placeholder?_enclosed h] at found
    cases found

theorem cut_cons (h : ∀ name, ¬StandsAt (c :: cs) 0 name) :
    cut (c :: cs) = (c :: (cut cs).1, (cut cs).2) := by
  rw [cut]
  split
  · next name rest found => exact absurd (standsAt_zero_iff.2 ⟨rest, found⟩) (h name)
  · rfl

@[simp] theorem segmentsOf_nil : segmentsOf [] = [] := by
  rw [segmentsOf, cut_nil]
  rfl

theorem segmentsOf_enclosed (h : isIdentifierList name = true) (rest : List Char) :
    segmentsOf (enclosed name ++ rest) = .var (String.ofList name) :: segmentsOf rest := by
  rw [segmentsOf, cut_enclosed h]
  rfl

theorem isIdentifierList_of_mem_cut {part : List Char × List Char} :
    part ∈ (cut cs).2 → isIdentifierList part.1 = true := by
  induction cs using scan with
  | nil => simp [cut_nil]
  | placeholder name rest proper ih =>
    rw [cut_enclosed proper]
    rintro (_ | ⟨_, mem⟩)
    · exact proper
    · exact ih mem
  | char c cs plain ih =>
    rw [cut_cons plain]
    exact ih

/-- A text has no variables just if no placeholder stands in it. -/
theorem cut_eq_nil_iff : (cut cs).2 = [] ↔ ∀ i name, ¬StandsAt cs i name := by
  induction cs using scan with
  | nil => simp [cut_nil, not_standsAt_nil]
  | placeholder name rest proper ih =>
    rw [cut_enclosed proper]
    refine ⟨nofun, fun none => absurd ?_ (none 0 name)⟩
    exact (standsAt_enclosed proper).2 (.inl ⟨rfl, rfl⟩)
  | char c cs plain ih =>
    rw [cut_cons plain, ih]
    refine ⟨fun none i name stands => ?_, fun none i => none (i + 1)⟩
    cases i with
    | zero => exact plain name stands
    | succ i => exact none i name stands

theorem segmentsOf_of_no_parts (h : (cut cs).2 = []) : segmentsOf cs = ofText cs := by
  have whole : (cut cs).1 = cs := by
    induction cs using scan with
    | nil => rw [cut_nil]
    | placeholder name rest proper ih =>
      rw [cut_enclosed proper] at h
      cases h
    | char c cs plain ih =>
      rw [cut_cons plain] at h ⊢
      rw [ih h]
  rw [segmentsOf, whole, h]
  exact List.append_nil _

theorem join_ofText (cs : List Char) : String.join ((ofText cs).map source) = String.ofList cs := by
  unfold ofText
  split
  · next h => simp [List.isEmpty_iff.1 h]
  · simp [source]

/-- The segments of a text, written one after the other, are the text. -/
theorem join_segmentsOf (cs : List Char) :
    String.join ((segmentsOf cs).map source) = String.ofList cs := by
  induction cs using scan with
  | nil => simp
  | placeholder name rest proper ih =>
    rw [segmentsOf_enclosed proper, List.map_cons, String.join_cons, ih, ← String.toList_inj]
    simp [source, enclosed]
  | char c cs plain ih =>
    rw [segmentsOf, List.map_append, String.join_append, join_ofText] at ih ⊢
    rw [cut_cons plain, ← List.singleton_append, String.ofList_append, String.append_assoc, ih,
      ← String.ofList_append, List.singleton_append]

theorem length_source_var (name : String) : (source (.var name)).length = name.length + 3 := by
  have braces : "\x7b$".length = 2 ∧ "\x7d".length = 1 := by decide
  rw [source, String.length_append, String.length_append]
  omega

/-! ## The variables of a text -/

/-- A variable is among the segments, behind so many characters. -/
def IsPlaced (segments : List Segment) (i : Nat) (name : String) : Prop :=
  ∃ before after, segments = before ++ .var name :: after ∧
    (String.join (before.map source)).length = i

theorem not_isPlaced_nil (i : Nat) (name : String) : ¬IsPlaced [] i name := by
  simp [IsPlaced]

theorem isPlaced_text {segments : List Segment} {text name : String} :
    IsPlaced (.text text :: segments) i name ↔
      ∃ j, i = text.length + j ∧ IsPlaced segments j name := by
  constructor
  · rintro ⟨before, after, eq, rfl⟩
    obtain ⟨-, wrong⟩ | ⟨before, rfl, rfl⟩ := List.cons_eq_append_iff.1 eq
    · cases wrong
    · exact ⟨_, by simp [source], before, after, rfl, rfl⟩
  · rintro ⟨j, rfl, before, after, rfl, rfl⟩
    exact ⟨.text text :: before, after, rfl, by simp [source]⟩

theorem isPlaced_var {segments : List Segment} {first name : String} :
    IsPlaced (.var first :: segments) i name ↔
      (i = 0 ∧ name = first) ∨ ∃ j, i = first.length + 3 + j ∧ IsPlaced segments j name := by
  constructor
  · rintro ⟨before, after, eq, rfl⟩
    obtain ⟨rfl, same⟩ | ⟨before, rfl, rfl⟩ := List.cons_eq_append_iff.1 eq
    · exact .inl ⟨rfl, Segment.var.inj (List.cons.inj same).1⟩
    · exact .inr ⟨_, by simp [length_source_var], before, after, rfl, rfl⟩
  · rintro (⟨rfl, rfl⟩ | ⟨j, rfl, before, after, rfl, rfl⟩)
    · exact ⟨[], segments, rfl, rfl⟩
    · exact ⟨.var first :: before, after, rfl, by simp [length_source_var]⟩

theorem isPlaced_ofText {segments : List Segment} {name : String} :
    IsPlaced (ofText cs ++ segments) i name ↔
      ∃ j, i = cs.length + j ∧ IsPlaced segments j name := by
  unfold ofText
  split
  · next h => simp [List.isEmpty_iff.1 h]
  · rw [List.singleton_append, isPlaced_text]
    simp

/-- The variables of a text are the placeholders that stand in it, each at its place. -/
theorem standsAt_iff {name : String} :
    StandsAt cs i name.toList ↔ IsPlaced (segmentsOf cs) i name := by
  induction cs using scan generalizing i with
  | nil => simp [not_standsAt_nil, not_isPlaced_nil]
  | placeholder first rest proper ih =>
    rw [segmentsOf_enclosed proper, standsAt_enclosed proper, isPlaced_var]
    simp [ih, ← String.toList_inj]
  | char c cs plain ih =>
    rw [segmentsOf, isPlaced_ofText, cut_cons plain]
    cases i with
    | zero =>
      refine ⟨fun h => absurd h (plain _), fun ⟨j, eq, _⟩ => ?_⟩
      simp only [List.length_cons] at eq
      omega
    | succ i =>
      rw [standsAt_succ, ih, segmentsOf, isPlaced_ofText, List.length_cons]
      exact exists_congr fun j => and_congr_left fun _ => by omega

/-! ## The form of segments -/

/-- A template has a variable, its variables have proper names, its texts are not empty, and of two
neighbours one is a variable. Its variables are the placeholders that stand in its text, each at its
place. -/
structure AreCanonical (segments : List Segment) : Prop where
  /-- There is a variable. -/
  exists_var : ∃ name, .var name ∈ segments
  /-- Variables have proper names. -/
  names : ∀ name, .var name ∈ segments → isIdentifier name = true
  /-- No text is empty. -/
  texts : ∀ text, .text text ∈ segments → text ≠ ""
  /-- No text is next to a text. -/
  apart : segments.IsChain fun a b => a.reads?.isSome ∨ b.reads?.isSome
  /-- The variables are the placeholders of the text, from left to right. -/
  placed : ∀ i name, IsPlaced segments i name ↔
    StandsAt (String.join (segments.map source)).toList i name.toList

theorem mem_ofText {segment : Segment} :
    segment ∈ ofText cs ↔ cs ≠ [] ∧ segment = .text (String.ofList cs) := by
  unfold ofText
  split <;> simp_all

theorem mem_pieces {segment : Segment} {parts : List (List Char × List Char)} :
    segment ∈ pieces parts ↔
      ∃ part ∈ parts, segment = .var (String.ofList part.1) ∨ segment ∈ ofText part.2 := by
  simp [pieces]

theorem isChain_pieces (before : List Char) (parts : List (List Char × List Char)) :
    (ofText before ++ pieces parts).IsChain fun a b => a.reads?.isSome ∨ b.reads?.isSome := by
  induction parts generalizing before with
  | nil => unfold ofText; split <;> simp [pieces]
  | cons part parts ih =>
    have behind := List.isChain_cons.2
      ⟨fun b _ => .inl (show (Segment.var (String.ofList part.1)).reads?.isSome from rfl),
        ih part.2⟩
    rw [pieces, List.flatMap_cons]
    unfold ofText
    split
    · exact behind
    · exact List.isChain_cons.2 ⟨fun b mem => by cases mem; exact .inr rfl, behind⟩

theorem areCanonical_segmentsOf (h : (cut cs).2 ≠ []) : AreCanonical (segmentsOf cs) where
  exists_var := by
    obtain ⟨part, parts, eq⟩ := List.exists_cons_of_ne_nil h
    exact ⟨String.ofList part.1, by simp [segmentsOf, eq, pieces]⟩
  names name mem := by
    rw [segmentsOf, List.mem_append, mem_ofText, mem_pieces] at mem
    obtain ⟨-, wrong⟩ | ⟨part, inside, same | text⟩ := mem
    · cases wrong
    · cases same
      simpa [isIdentifier] using isIdentifierList_of_mem_cut inside
    · cases (mem_ofText.1 text).2
  texts text mem := by
    -- Text that is empty is left out.
    have filled : ∀ {ds : List Char}, .text text ∈ ofText ds → text ≠ "" := by
      intro ds mem
      obtain ⟨nonempty, same⟩ := mem_ofText.1 mem
      cases same
      simpa [← String.toList_inj] using nonempty
    rw [segmentsOf, List.mem_append, mem_pieces] at mem
    obtain first | ⟨part, -, wrong | after⟩ := mem
    · exact filled first
    · cases wrong
    · exact filled after
  apart := isChain_pieces _ _
  placed i name := by rw [join_segmentsOf, String.toList_ofList, standsAt_iff]

/-! ## Filling in -/

/-- A text after one pass in which every placeholder that stands in it has been replaced by the text
of a value. What has been filled in is not looked at again. -/
inductive Fills (scope : Scope) : List Char → List Char → Prop
  | nil : Fills scope [] []
  | placeholder {name v rest out} (proper : isIdentifierList name = true)
      (bound : scope (String.ofList name) = some v) (behind : Fills scope rest out) :
      Fills scope (enclosed name ++ rest) (v.render.toList ++ out)
  | char {c cs out} (plain : ∀ name, ¬StandsAt (c :: cs) 0 name) (behind : Fills scope cs out) :
      Fills scope (c :: cs) (c :: out)

/-- Segments with values for their variables make up a text. -/
def Render (scope : Scope) (segments : List Segment) (out : List Char) : Prop :=
  ∃ texts, segments.mapM (Expr.segmentText scope) = .ok texts ∧ (String.join texts).toList = out

variable {scope : Scope} {segments : List Segment} {out : List Char}

theorem render_nil : Render scope [] out ↔ out = [] := by
  simp [Render, pure, Except.pure, eq_comm]

theorem render_text {text : String} :
    Render scope (.text text :: segments) out ↔
      ∃ behind, Render scope segments behind ∧ out = text.toList ++ behind := by
  simp only [Render, List.mapM_cons, Expr.segmentText, bind_eq_ok]
  constructor
  · rintro ⟨texts, ⟨first, eq, others, found, whole⟩, rfl⟩
    cases eq
    cases whole
    exact ⟨_, ⟨others, found, rfl⟩, by simp⟩
  · rintro ⟨behind, ⟨others, found, rfl⟩, rfl⟩
    exact ⟨text :: others, ⟨text, rfl, others, found, rfl⟩, by simp⟩

theorem render_var {name : String} :
    Render scope (.var name :: segments) out ↔
      ∃ v behind, scope name = some v ∧ Render scope segments behind ∧
        out = v.render.toList ++ behind := by
  simp only [Render, List.mapM_cons, Expr.segmentText, bind_eq_ok]
  constructor
  · rintro ⟨texts, ⟨first, eq, others, found, whole⟩, rfl⟩
    cases whole
    cases bound : scope name with
    | none => simp [Expr.resolve, bound, Except.map] at eq
    | some v =>
      simp only [Expr.resolve, bound, Except.map, Except.ok.injEq] at eq
      exact ⟨v, _, rfl, ⟨others, found, rfl⟩, by simp [eq]⟩
  · rintro ⟨v, behind, bound, ⟨others, found, rfl⟩, rfl⟩
    refine ⟨v.render :: others, ⟨v.render, ?_, others, found, rfl⟩, by simp⟩
    simp [Expr.resolve, bound, Except.map]

theorem render_ofText :
    Render scope (ofText cs ++ segments) out ↔
      ∃ behind, Render scope segments behind ∧ out = cs ++ behind := by
  unfold ofText
  split
  · next h => simp [List.isEmpty_iff.1 h]
  · rw [List.singleton_append, render_text]
    simp

theorem render_cons (plain : ∀ name, ¬StandsAt (c :: cs) 0 name) :
    Render scope (segmentsOf (c :: cs)) out ↔
      ∃ behind, Render scope (segmentsOf cs) behind ∧ out = c :: behind := by
  simp only [segmentsOf, cut_cons plain, render_ofText]
  constructor
  · rintro ⟨last, found, rfl⟩
    exact ⟨_, ⟨last, found, rfl⟩, rfl⟩
  · rintro ⟨behind, ⟨last, found, rfl⟩, rfl⟩
    exact ⟨last, found, rfl⟩

/-- The segments of a text make up what one pass over the text makes of it. -/
theorem fills_iff : Fills scope cs out ↔ Render scope (segmentsOf cs) out := by
  constructor
  · intro h
    induction h with
    | nil => simp [render_nil]
    | placeholder proper bound _ ih =>
      rw [segmentsOf_enclosed proper, render_var]
      exact ⟨_, _, bound, ih, rfl⟩
    | char plain _ ih => exact (render_cons plain).2 ⟨_, ih, rfl⟩
  · intro h
    induction cs using scan generalizing out with
    | nil =>
      rw [segmentsOf_nil, render_nil] at h
      subst h
      exact .nil
    | placeholder name rest proper ih =>
      rw [segmentsOf_enclosed proper, render_var] at h
      obtain ⟨v, behind, bound, found, rfl⟩ := h
      exact .placeholder proper bound (ih found)
    | char c cs plain ih =>
      obtain ⟨behind, found, rfl⟩ := (render_cons plain).1 h
      exact .char plain (ih found)

end Segment

end Dialogue
