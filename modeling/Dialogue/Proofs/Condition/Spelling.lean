import Dialogue.Condition
import Mathlib

/-!
# How tokens are written

A variable is written after a dollar sign. A string is written between quotes of either kind, with
a backslash in front of every backslash and of every quote of that kind. Words have an upper-case
and a lower-case form, and some signs have two forms as well. Tokens written with blanks between
them are read back, whatever the strings among them hold.

## Main definitions

* `Token.Spelling` — the ways to write one token
* `Token.Written` — the ways to write a list of tokens

## Main results

* `Token.next_of_spelling` — a token is read back in front of a blank and at the end
* `Token.Written.ofChars` — a list of tokens is read back
* `Token.exists_written_iff` — what can be written: all but numbers and variables with odd names
* `Token.Written.trim` — blanks at the ends may go
-/

namespace Dialogue

/-! ## Characters -/

theorem toNat_of_isAlpha {c : Char} (h : c.isAlpha = true) :
    65 ≤ c.toNat ∧ c.toNat ≤ 90 ∨ 97 ≤ c.toNat ∧ c.toNat ≤ 122 := by
  simp only [Char.isAlpha, Char.isUpper, Char.isLower, Bool.or_eq_true, Bool.and_eq_true,
    decide_eq_true_eq, ge_iff_le, UInt32.le_iff_toNat_le] at h
  exact h

theorem isDigit_iff {c : Char} : c.isDigit = true ↔ 48 ≤ c.toNat ∧ c.toNat ≤ 57 := by
  simp only [Char.isDigit, Bool.and_eq_true, decide_eq_true_eq, ge_iff_le, UInt32.le_iff_toNat_le]
  exact Iff.rfl

/-- The numbers of the characters that an identifier may begin with. -/
theorem toNat_of_isIdentifierStart {c : Char} (h : isIdentifierStart c = true) :
    65 ≤ c.toNat ∧ c.toNat ≤ 90 ∨ c.toNat = 95 ∨ 97 ≤ c.toNat ∧ c.toNat ≤ 122 := by
  rcases Bool.or_eq_true .. ▸ h with alpha | underscore
  · have := toNat_of_isAlpha alpha
    omega
  · obtain rfl := eq_of_beq underscore
    decide

theorem isBlank_of_isIdentifierRest {c : Char} (h : isIdentifierRest c = true) :
    Text.isBlank c = false := by
  have number : 48 ≤ c.toNat ∧ c.toNat ≤ 57 ∨ 65 ≤ c.toNat ∧ c.toNat ≤ 90 ∨ c.toNat = 95 ∨
      97 ≤ c.toNat ∧ c.toNat ≤ 122 := by
    simp only [isIdentifierRest, Char.isAlphanum, Bool.or_eq_true] at h
    obtain (alpha | digit) | underscore := h
    · exact .inr (toNat_of_isIdentifierStart (by simp [isIdentifierStart, alpha]))
    · exact .inl (isDigit_iff.1 digit)
    · exact .inr (toNat_of_isIdentifierStart (by simp [isIdentifierStart, underscore]))
  simp only [Text.isBlank, Bool.or_eq_false_iff, Bool.and_eq_false_iff, decide_eq_false_iff_not,
    beq_eq_false_iff_ne]
  omega

namespace Text

theorem trimRight_append (cs ds : List Char) :
    trimRight (cs ++ ds) =
      if trimRight ds = [] then trimRight cs else cs ++ trimRight ds := by
  unfold trimRight
  rw [List.reverse_append, List.dropWhile_append]
  by_cases blank : ds.reverse.dropWhile isBlank = [] <;> simp [blank]

theorem trimRight_prefix (cs : List Char) : trimRight cs <+: cs := by
  have := List.dropWhile_suffix (l := cs.reverse) isBlank
  rwa [← List.reverse_prefix, List.reverse_reverse] at this

end Text

namespace Token

theorem isWordStart_of_isIdentifierStart {c : Char} (h : isIdentifierStart c = true) :
    isWordStart c = true := by
  simp only [isIdentifierStart, isWordStart, Bool.or_eq_true] at h ⊢
  refine h.imp_left fun alpha => ?_
  have small : c.toNat < 0x80 := by
    have := toNat_of_isAlpha alpha
    omega
  rw [Text.isLetter, if_pos small, alpha]

theorem isWordRest_of_isIdentifierStart {c : Char} (h : isIdentifierStart c = true) :
    isWordRest c = true := by
  have := isWordStart_of_isIdentifierStart h
  simp only [isWordStart, isWordRest, Bool.or_eq_true] at this ⊢
  grind

/-- The blanks that part tokens. -/
def gaps : List Char := [' ', '\t', '\n', '\r']

theorem isGap_iff {c : Char} : isGap c = true ↔ c ∈ gaps := by
  simp [isGap, gaps, or_assoc]

theorem isBlank_of_mem : ∀ c ∈ gaps, Text.isBlank c = true := List.all_eq_true.1 rfl

/-- What does not hold of any of several characters is found by looking at each of them. -/
theorem eq_false_of_all {p : Char → Bool} {cs : List Char} (h : cs.all (fun c => !p c) = true) :
    ∀ c ∈ cs, p c = false := by
  simpa only [List.all_eq_true, Bool.not_eq_true'] using h

theorem isIdentifierRest_of_mem : ∀ c ∈ gaps, isIdentifierRest c = false := eq_false_of_all rfl

theorem isWordRest_of_mem : ∀ c ∈ gaps, isWordRest c = false := eq_false_of_all rfl

/-! ## One token -/

/-- The forms of a token that is a word. -/
def words : Token → List String
  | bool true => ["true"]
  | bool false => ["false"]
  | null => ["null"]
  | and => ["AND", "and"]
  | or => ["OR", "or"]
  | not => ["NOT", "not"]
  | contains => ["CONTAINS", "contains"]
  | isMatch => ["MATCHES", "matches"]
  | startsWith => ["STARTS_WITH", "starts_with"]
  | endsWith => ["ENDS_WITH", "ends_with"]
  | _ => []

/-- The forms of a token that is a sign. -/
def signs : Token → List (List Char)
  | not => [['!']]
  | eq => [['='], ['=', '=']]
  | notEq => [['!', '=']]
  | greater => [['>']]
  | less => [['<']]
  | greaterEq => [['>', '=']]
  | lessEq => [['<', '=']]
  | leftParen => [['(']]
  | rightParen => [[')']]
  | _ => []

/-- A character between quotes: a backslash and the quote itself stand after a backslash. -/
def escape (quote c : Char) : List Char := if c = '\\' ∨ c = quote then ['\\', c] else [c]

/-- The ways to write a token. -/
inductive Spelling : Token → List Char → Prop
  | var (name) (h : isIdentifier name = true) : Spelling (.var name) ('$' :: name.toList)
  | string (s) (quote) (h : quote = '"' ∨ quote = '\'') :
    Spelling (.string s) (quote :: (s.toList.flatMap (escape quote) ++ [quote]))
  | word (t form) (h : form ∈ words t) : Spelling t form.toList
  | sign (t form) (h : form ∈ signs t) : Spelling t form

/-- Whether a token ends in front of these characters: there are none, or a blank comes first. -/
def Parts (cs : List Char) : Prop := ∀ c ∈ cs.head?, c ∈ gaps

variable {t : Token} {c : Char} {cs rest : List Char}

theorem Parts.of_prefix (parts : Parts rest) (h : cs <+: rest) : Parts cs := by
  intro c head
  obtain ⟨more, rfl⟩ := h
  exact parts c (by simp [List.head?_append, Option.mem_def.1 head])

/-- What is taken of a text while a test holds stops at a blank that fails it. -/
theorem takeWhile_parts {p : Char → Bool} (all : ∀ c ∈ cs, p c = true)
    (gap : ∀ c ∈ gaps, p c = false) (parts : Parts rest) : (cs ++ rest).takeWhile p = cs := by
  rw [List.takeWhile_append_of_pos all]
  cases rest with
  | nil => simp
  | cons c rest => simp [gap c (parts c rfl)]

theorem dropWhile_parts {p : Char → Bool} (all : ∀ c ∈ cs, p c = true)
    (gap : ∀ c ∈ gaps, p c = false) (parts : Parts rest) : (cs ++ rest).dropWhile p = rest := by
  rw [List.dropWhile_append_of_pos all]
  cases rest with
  | nil => simp
  | cons c rest => simp [gap c (parts c rfl)]

theorem dropEquals_parts (parts : Parts rest) : dropEquals rest = (false, rest) := by
  unfold dropEquals
  split
  · exact absurd (parts '=' rfl) (by decide)
  · rfl

theorem dropEquals_equals (rest : List Char) : dropEquals ('=' :: rest) = (true, rest) := rfl

/-- Escapes are undone, up to the quote. -/
theorem stringBody_escape {quote : Char} (h : quote ≠ '\\') (s rest : List Char) :
    stringBody quote (s.flatMap (escape quote) ++ quote :: rest) = some (s, rest) := by
  induction s with
  | nil => simp [stringBody, h]
  | cons c s ih =>
    rw [List.flatMap_cons, List.append_assoc]
    by_cases special : c = '\\' ∨ c = quote
    · rw [escape, if_pos special]
      simp only [List.cons_append, List.nil_append, stringBody, ih, Option.map_some]
    · rw [escape, if_neg special]
      rw [not_or] at special
      simp [stringBody, special.1, special.2, ih]

theorem next_var {name : String} (h : isIdentifier name = true) (parts : Parts rest) :
    next '$' (name.toList ++ rest) = .ok (.var name, rest) := by
  have all := isIdentifierRest_of_isIdentifierList h
  have h : isIdentifierList name.toList = true := h
  simp [next, takeWhile_parts all isIdentifierRest_of_mem parts,
    dropWhile_parts all isIdentifierRest_of_mem parts, h]

theorem next_string {s : String} {quote : Char} (h : quote = '"' ∨ quote = '\'')
    (rest : List Char) :
    next quote (s.toList.flatMap (escape quote) ++ quote :: rest) = .ok (.string s, rest) := by
  rcases h with rfl | rfl <;> simp [next, stringBody_escape]

theorem next_word (h : ∀ d ∈ c :: cs, isIdentifierStart d = true)
    (word : ofWord? (String.ofList (c :: cs)) = some t) (parts : Parts rest) :
    next c (cs ++ rest) = .ok (t, rest) := by
  have all (d) (mem : d ∈ cs) := isWordRest_of_isIdentifierStart (h d (.tail _ mem))
  have start := h c (.head _)
  have number := toNat_of_isIdentifierStart start
  have other (d : Char) (hd : isIdentifierStart d = false) : (c == d) = false := by
    refine beq_eq_false_iff_ne.2 ?_
    rintro rfl
    rw [start] at hd
    cases hd
  have digit : c.isDigit = false := by
    rw [Bool.eq_false_iff, ne_eq, isDigit_iff]
    omega
  simp only [next, other '(' (by decide), other ')' (by decide), other '"' (by decide),
    other '\'' (by decide), other '$' (by decide), other '>' (by decide), other '<' (by decide),
    other '=' (by decide), other '!' (by decide), other '-' (by decide), digit, Bool.false_or,
    Bool.false_eq_true, ↓reduceIte, isWordStart_of_isIdentifierStart start,
    takeWhile_parts all isWordRest_of_mem parts, dropWhile_parts all isWordRest_of_mem parts, word]

theorem ofWord?_of_mem {form : String} (h : form ∈ words t) :
    ofWord? form = some t ∧ form ≠ "" ∧ ∀ c ∈ form.toList, isIdentifierStart c = true := by
  unfold words at h
  split at h <;> simp only [List.mem_cons, List.not_mem_nil, or_false] at h
  all_goals (rcases h with rfl | rfl <;> exact ⟨rfl, by decide, List.all_eq_true.1 (by decide)⟩)

theorem next_sign {form : List Char} (h : form ∈ signs t) (parts : Parts rest) :
    ∃ c cs, form = c :: cs ∧ next c (cs ++ rest) = .ok (t, rest) := by
  unfold signs at h
  split at h <;> simp only [List.mem_cons, List.not_mem_nil, or_false] at h
  all_goals
    rcases h with rfl | rfl <;>
      exact ⟨_, _, rfl, by simp [next, dropEquals_parts parts, dropEquals_equals]⟩

/-- A token is read back in front of a blank and at the end. -/
theorem next_of_spelling (h : Spelling t cs) (parts : Parts rest) :
    ∃ c cs', cs = c :: cs' ∧ next c (cs' ++ rest) = .ok (t, rest) := by
  cases h with
  | var name h => exact ⟨_, _, rfl, next_var h parts⟩
  | string s quote h =>
    refine ⟨_, _, rfl, ?_⟩
    rw [List.append_assoc]
    exact next_string h rest
  | word _ form h =>
    obtain ⟨word, nonempty, all⟩ := ofWord?_of_mem h
    cases eq : form.toList with
    | nil => exact absurd (String.toList_eq_nil_iff.1 eq) nonempty
    | cons c cs =>
      rw [eq] at all
      rw [← String.ofList_toList (s := form), eq] at word
      exact ⟨c, cs, rfl, next_word all word parts⟩
  | sign _ _ h => exact next_sign h parts

/-- Whether a text has a first and a last character and neither is a blank. -/
def IsTrim (cs : List Char) : Prop :=
  ∃ c d, cs.head? = some c ∧ cs.getLast? = some d ∧ Text.isBlank c = false ∧ Text.isBlank d = false

theorem isTrim_of_all (nonempty : cs ≠ []) (h : ∀ c ∈ cs, Text.isBlank c = false) : IsTrim cs :=
  ⟨cs.head nonempty, cs.getLast nonempty, List.head?_eq_some_head nonempty,
    List.getLast?_eq_some_getLast nonempty, h _ (List.head_mem nonempty),
    h _ (List.getLast_mem nonempty)⟩

theorem IsTrim.trimLeft_append (h : IsTrim cs) (rest : List Char) :
    Text.trimLeft (cs ++ rest) = cs ++ rest := by
  obtain ⟨c, -, head, -, plain, -⟩ := h
  obtain ⟨cs, rfl⟩ := List.head?_eq_some_iff.1 head
  rw [Text.trimLeft, List.cons_append, List.dropWhile_cons_of_neg (by simp [plain])]

theorem IsTrim.trimRight (h : IsTrim cs) : Text.trimRight cs = cs := by
  obtain ⟨-, d, -, last, -, plain⟩ := h
  obtain ⟨cs, rfl⟩ := List.getLast?_eq_some_iff.1 last
  simp [Text.trimRight, plain]

/-- No spelling begins or ends with a blank. -/
theorem Spelling.isTrim (h : Spelling t cs) : IsTrim cs := by
  cases h with
  | var name h =>
    refine isTrim_of_all (List.cons_ne_nil _ _) (List.forall_mem_cons.2 ⟨by decide, ?_⟩)
    exact fun c mem => isBlank_of_isIdentifierRest (isIdentifierRest_of_isIdentifierList h c mem)
  | string s quote h =>
    have plain : Text.isBlank quote = false := by rcases h with rfl | rfl <;> decide
    exact ⟨quote, quote, rfl, by simp [List.getLast?_cons], plain, plain⟩
  | word _ form h =>
    obtain ⟨-, nonempty, all⟩ := ofWord?_of_mem h
    exact isTrim_of_all (mt String.toList_eq_nil_iff.1 nonempty)
      fun c mem => isBlank_of_isIdentifierRest (isIdentifierRest_of_start (all c mem))
  | sign _ _ h =>
    unfold signs at h
    split at h <;> simp only [List.mem_cons, List.not_mem_nil, or_false] at h
    all_goals rcases h with rfl | rfl <;> exact isTrim_of_all (by decide) (eq_false_of_all rfl)

/-! ## Lists of tokens -/

/-- The ways to write tokens: each token is parted from the next by at least one blank, and there
may be more of them anywhere. -/
inductive Written : List Token → List Char → Prop
  | nil : Written [] []
  | gap {ts cs} (c) (h : c ∈ gaps) (more : Written ts cs) : Written ts (c :: cs)
  | token {t s ts cs} (h : Spelling t s) (parts : Parts cs) (more : Written ts cs) :
    Written (t :: ts) (s ++ cs)

namespace Written

variable {ts : List Token}

/-- Tokens are read back from any writing of them. -/
theorem ofChars (h : Written ts cs) : Token.ofChars cs = .ok ts := by
  induction h with
  | nil => rw [Token.ofChars]
  | gap c h more ih => rw [Token.ofChars, if_pos (isGap_iff.2 h), ih]
  | token h parts more ih =>
    obtain ⟨c, cs, rfl, taken⟩ := next_of_spelling h parts
    obtain ⟨c', -, head, -, plain, -⟩ := h.isTrim
    obtain rfl := Option.some.inj head
    have solid : ¬isGap c = true := fun gap => by
      rw [isBlank_of_mem c (isGap_iff.1 gap)] at plain
      cases plain
    rw [List.cons_append, Token.ofChars, if_neg solid]
    split
    · next e failed => cases taken.symm.trans failed
    · next t' r taken' =>
      cases taken.symm.trans taken'
      rw [ih]
      rfl

/-- Tokens may be parted by single blanks. -/
theorem cons {s : List Char} (h : Spelling t s) (more : Written ts cs) :
    Written (t :: ts) (s ++ ' ' :: cs) :=
  .token h (fun c eq => by cases eq; decide) (.gap ' ' (by decide) more)

/-! ### Blanks at the ends -/

theorem trimLeft (h : Written ts cs) : Written ts (Text.trimLeft cs) := by
  induction h with
  | nil => exact .nil
  | gap c h more ih => rwa [Text.trimLeft, List.dropWhile_cons_of_pos (isBlank_of_mem c h)]
  | @token t s ts cs h parts more ih =>
    rw [h.isTrim.trimLeft_append]
    exact .token h parts more

theorem trimRight (h : Written ts cs) : Written ts (Text.trimRight cs) := by
  induction h with
  | nil => exact .nil
  | @gap ts cs c h more ih =>
    rw [← List.singleton_append, Text.trimRight_append]
    split
    · next none =>
      rw [none] at ih
      simpa [Text.trimRight, isBlank_of_mem c h] using ih
    · exact .gap c h ih
  | @token t s ts cs h parts more ih =>
    rw [Text.trimRight_append, h.isTrim.trimRight]
    split
    · next none =>
      rw [none] at ih
      simpa using Written.token h (by simp [Parts]) ih
    · exact .token h (parts.of_prefix (Text.trimRight_prefix cs)) ih

theorem trim (h : Written ts cs) : Written ts (Text.trimRight (Text.trimLeft cs)) :=
  h.trimLeft.trimRight

end Written

/-- The tokens that can be written: numbers are left out, and so are variables with odd names. -/
def IsPlain : Token → Prop
  | var name => isIdentifier name = true
  | number _ => False
  | _ => True

theorem exists_spelling_iff : (∃ cs, Spelling t cs) ↔ t.IsPlain := by
  constructor
  · rintro ⟨cs, h⟩
    cases h with
    | var name h => exact h
    | string s quote h => trivial
    | word t form h => cases t <;> trivial
    | sign t form h => cases t <;> trivial
  · intro h
    cases t with
    | var name => exact ⟨_, .var name h⟩
    | string s => exact ⟨_, .string s '"' (.inl rfl)⟩
    | number x => exact h.elim
    | bool b => cases b <;> exact ⟨_, .word _ _ (.head _)⟩
    | null | and | or | not | contains | isMatch | startsWith | endsWith =>
      exact ⟨_, .word _ _ (.head _)⟩
    | _ => exact ⟨_, .sign _ _ (.head _)⟩

/-- Tokens can be written just if each of them can. -/
theorem exists_written_iff {ts : List Token} : (∃ cs, Written ts cs) ↔ ∀ t ∈ ts, t.IsPlain := by
  constructor
  · rintro ⟨cs, h⟩
    induction h with
    | nil => simp
    | gap _ _ _ ih => exact ih
    | token h _ _ ih => exact List.forall_mem_cons.2 ⟨exists_spelling_iff.1 ⟨_, h⟩, ih⟩
  · intro h
    induction ts with
    | nil => exact ⟨[], .nil⟩
    | cons t ts ih =>
      obtain ⟨first, more⟩ := List.forall_mem_cons.1 h
      obtain ⟨s, spelled⟩ := exists_spelling_iff.2 first
      obtain ⟨cs, written⟩ := ih more
      exact ⟨_, written.cons spelled⟩

end Token

end Dialogue
