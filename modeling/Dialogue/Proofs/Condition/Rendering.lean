import Dialogue.Proofs.Condition.Grammar
import Dialogue.Proofs.Condition.Spelling

/-!
# Conditions read back

A formula is written with parentheses around every comparison and every connective. Whatever
writing of its tokens is chosen, the condition that is read from it says the formula again. The
formulas that can be written so compare variables with proper names, strings, truth values and
null; they negate only comparisons by a word, and their patterns are written out.

## Main definitions

* `Formula.parenthesised` — the tokens of a formula
* `Formula.IsPlain` — the formulas that can be written

## Main results

* `Formula.ofTokens_parenthesised` — the tokens of a formula are read as the formula
* `Condition.read_back` — texts are cut into the tokens that they were written from, and a formula
  is read from any text of its tokens
-/

namespace Dialogue

namespace Operand

/-- The operands that can be written. -/
inductive IsPlain : Operand → Prop
  | var (name) (h : isIdentifier name = true) : IsPlain (.var name)
  | string (s) : IsPlain (.literal (.string s))
  | bool (b) : IsPlain (.literal (.bool b))
  | null : IsPlain (.literal .null)

/-- The token of an operand. Lists and maps have none. -/
def tokens : Operand → List Token
  | var name => [.var name]
  | literal (.string s) => [.string s]
  | literal (.number x) => [.number x]
  | literal (.bool b) => [.bool b]
  | literal .null => [.null]
  | literal _ => []

theorem IsPlain.exists_leaf {o : Operand} (h : o.IsPlain) :
    ∃ l : Formula.Leaf, o.tokens = [l.token] ∧ l.operand = o ∧ l.token.IsPlain := by
  cases h with
  | var name h => exact ⟨.var name, rfl, rfl, h⟩
  | string s => exact ⟨.string s, rfl, rfl, trivial⟩
  | bool b => exact ⟨.bool b, rfl, rfl, trivial⟩
  | null => exact ⟨.null, rfl, rfl, trivial⟩

end Operand

namespace Operator

/-- The token of an operator. -/
def token : Operator → Token
  | contains => .contains
  | isMatch _ => .isMatch
  | startsWith => .startsWith
  | endsWith => .endsWith
  | eq => .eq
  | notEq => .notEq
  | greater => .greater
  | less => .less
  | greaterEq => .greaterEq
  | lessEq => .lessEq

/-- Whether a comparison with something on its right can be written: only words are negated, and a
pattern is a string that can be read as one. -/
def Fits (negated : Bool) (right : Operand) : Operator → Prop
  | contains | startsWith | endsWith => True
  | isMatch regex =>
    ∃ pattern, right = .literal (.string pattern) ∧ Regex.read? pattern = some regex
  | eq | notEq | greater | less | greaterEq | lessEq => negated = false

variable {op : Operator} {l : Formula.Leaf}

theorem Fits.isWord (h : op.Fits true l.operand) : Formula.IsWord op.token op l := by
  cases op with
  | contains => exact .contains l
  | startsWith => exact .startsWith l
  | endsWith => exact .endsWith l
  | isMatch regex =>
    obtain ⟨pattern, onRight, read⟩ := h
    cases l <;> cases onRight
    exact .isMatch pattern regex read
  | _ => cases h

theorem Fits.isOperator (h : op.Fits false l.operand) : Formula.IsOperator op.token op l := by
  cases op with
  | contains | startsWith | endsWith | isMatch => exact .word (Fits.isWord h)
  | eq => exact .eq l
  | notEq => exact .notEq l
  | greater => exact .greater l
  | less => exact .less l
  | greaterEq => exact .greaterEq l
  | lessEq => exact .lessEq l

theorem isPlain_token (op : Operator) : op.token.IsPlain := by
  cases op <;> trivial

end Operator

namespace Formula

/-- The formulas that can be written. -/
def IsPlain : Formula → Prop
  | literal _ => True
  | truthy name => isIdentifier name = true
  | compare left op negated right => left.IsPlain ∧ right.IsPlain ∧ op.Fits negated right
  | and a b => a.IsPlain ∧ b.IsPlain
  | or a b => a.IsPlain ∧ b.IsPlain
  | not a => a.IsPlain

/-- The tokens of a formula, with parentheses around every comparison and every connective. -/
def parenthesised : Formula → List Token
  | literal b => [.bool b]
  | truthy name => [.var name]
  | compare left op negated right =>
    .leftParen :: (left.tokens ++ (if negated then [.not] else []) ++ [op.token] ++ right.tokens ++
      [.rightParen])
  | and a b => .leftParen :: (a.parenthesised ++ [.and] ++ b.parenthesised ++ [.rightParen])
  | or a b => .leftParen :: (a.parenthesised ++ [.or] ++ b.parenthesised ++ [.rightParen])
  | not a => .leftParen :: .not :: (a.parenthesised ++ [.rightParen])

theorem parenthesised_ne_nil (f : Formula) : f.parenthesised ≠ [] := by
  cases f <;> simp [parenthesised]

theorem isPlain_of_mem {f : Formula} (h : f.IsPlain) : ∀ t ∈ f.parenthesised, t.IsPlain := by
  induction f with
  | literal b => exact fun t mem => by cases List.mem_singleton.1 mem; trivial
  | truthy name => exact fun t mem => by cases List.mem_singleton.1 mem; exact h
  | compare left op negated right =>
    obtain ⟨l, left_eq, -, left_plain⟩ := h.1.exists_leaf
    obtain ⟨r, right_eq, -, right_plain⟩ := h.2.1.exists_leaf
    have := op.isPlain_token
    cases negated <;> simp_all [parenthesised, Token.IsPlain]
  | and a b iha ihb | or a b iha ihb =>
    simp only [parenthesised, List.forall_mem_cons, List.forall_mem_append]
    exact ⟨trivial, ⟨⟨iha h.1, trivial, by simp⟩, ihb h.2⟩, trivial, by simp⟩
  | not a ih =>
    simp only [parenthesised, List.forall_mem_cons, List.forall_mem_append]
    exact ⟨trivial, trivial, ih h, trivial, by simp⟩

namespace Derivation

/-- A primary by itself. -/
def alone (d : Derivation .primary) : Derivation .disjunction :=
  .disjunction (.conjunction (.plain d) .noConjunct) .noDisjunct

theorem tokens_alone (d : Derivation .primary) : d.alone.tokens = d.tokens := by
  simp [alone, tokens]

theorem reading_alone (d : Derivation .primary) : d.alone.reading = d.reading := rfl

end Derivation

/-- The grammar derives the tokens of a formula, as what reads as the formula. -/
theorem exists_derivation {f : Formula} (h : f.IsPlain) :
    ∃ d : Derivation .primary, d.tokens = f.parenthesised ∧ d.reading = f := by
  induction f with
  | literal b => exact ⟨.bare (.bool b), rfl, rfl⟩
  | truthy name => exact ⟨.bare (.var name), rfl, rfl⟩
  | compare left op negated right =>
    obtain ⟨l, left_eq, rfl, -⟩ := h.1.exists_leaf
    obtain ⟨r, right_eq, rfl, -⟩ := h.2.1.exists_leaf
    -- Everything that is put together stands in parentheses, so it is a primary again.
    cases negated with
    | false =>
      refine ⟨.group (Derivation.alone (.compare l op.token op r h.2.2.isOperator)), ?_, rfl⟩
      simp [Derivation.tokens, Derivation.tokens_alone, parenthesised, left_eq, right_eq]
    | true =>
      refine ⟨.group (Derivation.alone (.compareNot l op.token op r h.2.2.isWord)), ?_, rfl⟩
      simp [Derivation.tokens, Derivation.tokens_alone, parenthesised, left_eq, right_eq]
  | and a b iha ihb =>
    obtain ⟨da, tokens_a, reading_a⟩ := iha h.1
    obtain ⟨db, tokens_b, reading_b⟩ := ihb h.2
    refine ⟨.group (.disjunction
      (.conjunction (.plain da) (.conjunct (.plain db) .noConjunct)) .noDisjunct), ?_, ?_⟩
    · simp [Derivation.tokens, parenthesised, tokens_a, tokens_b]
    · simp [Derivation.reading, reading_a, reading_b]
  | or a b iha ihb =>
    obtain ⟨da, tokens_a, reading_a⟩ := iha h.1
    obtain ⟨db, tokens_b, reading_b⟩ := ihb h.2
    refine ⟨.group (.disjunction (.conjunction (.plain da) .noConjunct)
      (.disjunct (.conjunction (.plain db) .noConjunct) .noDisjunct)), ?_, ?_⟩
    · simp [Derivation.tokens, parenthesised, tokens_a, tokens_b]
    · simp [Derivation.reading, reading_a, reading_b]
  | not a ih =>
    obtain ⟨d, tokens_a, reading_a⟩ := ih h
    refine ⟨.group (.disjunction (.conjunction (.not (.plain d)) .noConjunct) .noDisjunct), ?_, ?_⟩
    · simp [Derivation.tokens, parenthesised, tokens_a]
    · simp [Derivation.reading, reading_a]

/-- The tokens of a formula are read as the formula. -/
theorem ofTokens_parenthesised {f : Formula} (h : f.IsPlain) :
    ofTokens f.parenthesised = .ok f := by
  obtain ⟨d, same, read⟩ := exists_derivation h
  rw [← same, ← d.tokens_alone, d.alone.ofTokens_tokens, d.reading_alone, read]

end Formula

namespace Condition

/-- A text of tokens is read as what the tokens say. -/
theorem ofText_of_written {ts : List Token} {f : Formula} {text : String} (nonempty : ts ≠ [])
    (read : Formula.ofTokens ts = .ok f) (h : Token.Written ts text.toList) :
    ofText text = .ok ⟨text, f⟩ := by
  have cut : Token.ofText (Text.trim text) = .ok ts := by
    rw [Token.ofText, Text.trim, String.toList_ofList]
    exact h.trim.ofChars
  have some : (Text.trim text).isEmpty = false := by
    refine Bool.eq_false_iff.2 fun empty => nonempty ?_
    rw [String.isEmpty_iff.1 empty] at cut
    have nothing : Token.ofText "" = .ok [] := Token.Written.nil.ofChars
    exact Except.ok.inj (cut.symm.trans nothing)
  simp only [ofText, some, cut, read, bind, Except.bind]
  rfl

/-- Tokens can be written if none is a number and the variables have proper names, and a text of
tokens is cut into those tokens. A formula is read from every text of its tokens. -/
theorem read_back :
    (∀ ts : List Token,
      (∃ text : String, Token.Written ts text.toList) ↔ ∀ t ∈ ts, t.IsPlain) ∧
    (∀ (ts : List Token) (text : String),
      Token.Written ts text.toList → Token.ofText text = .ok ts) ∧
    ∀ f : Formula, f.IsPlain →
      (∃ text : String, Token.Written f.parenthesised text.toList) ∧
      ∀ text : String, Token.Written f.parenthesised text.toList → ofText text = .ok ⟨text, f⟩ := by
  have exists_text (ts : List Token) :
      (∃ text : String, Token.Written ts text.toList) ↔ ∀ t ∈ ts, t.IsPlain := by
    rw [← Token.exists_written_iff]
    refine ⟨fun ⟨text, h⟩ => ⟨_, h⟩, fun ⟨cs, h⟩ => ⟨String.ofList cs, ?_⟩⟩
    rwa [String.toList_ofList]
  refine ⟨exists_text, fun ts text h => h.ofChars, fun f plain => ⟨?_, fun text h => ?_⟩⟩
  · exact (exists_text _).2 (Formula.isPlain_of_mem plain)
  · exact ofText_of_written f.parenthesised_ne_nil (Formula.ofTokens_parenthesised plain) h

end Condition

end Dialogue
