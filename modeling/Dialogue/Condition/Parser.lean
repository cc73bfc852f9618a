import Dialogue.Condition.Formula
import Dialogue.Condition.Token
import Dialogue.Regex.Reader

/-!
# Reading formulas

"Or" binds weakest, then "and", then "not"; parentheses and comparisons bind strongest. A
comparison by a word may be negated by "not" in front of the word.

## Main definitions

* `Formula.Parser.Parsed` — a formula, and the tokens after it
* `Formula.Parser.disjunction` — takes a formula off the front of a list of tokens
* `Formula.ofTokens` — the formula of a whole list of tokens
-/

namespace Dialogue

namespace Token

/-- Whether a token compares two operands. -/
def isOperator : Token → Bool
  | contains | isMatch | startsWith | endsWith | eq | notEq | greater | less | greaterEq
  | lessEq => true
  | _ => false

/-- The operand that a token stands for. -/
def operand? : Token → Option Operand
  | var name => some (.var name)
  | string s => some (.literal (.string s))
  | number x => some (.literal (.number x))
  | bool b => some (.literal (.bool b))
  | null => some (.literal .null)
  | _ => none

end Token

namespace Formula.Parser

/-- A formula taken off the front of a list of tokens, and the shorter list after it. -/
structure Parsed (ts : List Token) where
  /-- The formula. -/
  formula : Formula
  /-- The tokens after it. -/
  rest : List Token
  /-- The formula has at least one token. -/
  shorter : rest.length < ts.length

/-- Takes an operand off the front of a list of tokens. -/
def operand (ts : List Token) : Except ConditionError (Operand × List Token) :=
  match ts with
  | t :: rest =>
    match t.operand? with
    | some o => .ok (o, rest)
    | none => .error (.missingOperand (some t))
  | [] => .error (.missingOperand none)

/-- What a single operand says: a variable is tested for truth, a value is true or not. -/
def bare : Operand → Formula
  | .var name => .truthy name
  | .literal v => .literal v.isTruthy

/-- The operator of a token, given whether it is negated and what is on its right. -/
def operator (t : Token) (negated : Bool) (right : Operand) : Except ConditionError Operator :=
  match t with
  | .contains => .ok .contains
  | .startsWith => .ok .startsWith
  | .endsWith => .ok .endsWith
  | .isMatch =>
    match right with
    | .literal (.string pattern) =>
      match Regex.read? pattern with
      | some r => .ok (.isMatch r)
      | none => .error (.invalidRegex pattern)
    | _ => .error .regexNotQuoted
  | t =>
    if negated then .error (.notNegatable t)
    else
      match t with
      | .eq => .ok .eq
      | .notEq => .ok .notEq
      | .greater => .ok .greater
      | .less => .ok .less
      | .greaterEq => .ok .greaterEq
      | _ => .ok .lessEq

/-- Whether an operator comes next, and whether it is negated: the token of the operator and the
tokens after it. -/
def operatorAhead? : List Token → Option (Bool × Token × List Token)
  | .not :: t :: rest => if t.isOperator then some (true, t, rest) else none
  | t :: rest => if t.isOperator then some (false, t, rest) else none
  | [] => none

/-- Takes an operand, or a comparison of two operands, off the front of a list of tokens. -/
def comparison (ts : List Token) : Except ConditionError (Formula × List Token) := do
  let (left, rest) ← operand ts
  match operatorAhead? rest with
  | none => return (bare left, rest)
  | some (negated, t, rest) =>
    let (right, rest) ← operand rest
    let op ← operator t negated right
    return (.compare left op negated right, rest)

theorem length_operand {ts rest : List Token} {o : Operand} (h : operand ts = .ok (o, rest)) :
    rest.length < ts.length := by
  unfold operand at h
  split at h
  · split at h <;> cases h
    simp
  · cases h

theorem length_operatorAhead? {ts rest : List Token} {negated : Bool} {t : Token}
    (h : operatorAhead? ts = some (negated, t, rest)) : rest.length < ts.length := by
  unfold operatorAhead? at h
  split at h
  · split at h <;> cases h
    simp only [List.length_cons]
    omega
  · split at h <;> cases h
    simp
  · cases h

theorem length_comparison {ts rest : List Token} {f : Formula}
    (h : comparison ts = .ok (f, rest)) : rest.length < ts.length := by
  unfold comparison at h
  cases hl : operand ts with
  | error e => rw [hl] at h; cases h
  | ok p =>
    obtain ⟨left, r₁⟩ := p
    -- Whatever reads as an operand, or as an operator, has taken at least one token.
    have h₁ := length_operand hl
    simp only [hl, bind, Except.bind] at h
    split at h
    · cases h
      exact h₁
    · next negated t r₂ ha =>
      have h₂ := length_operatorAhead? ha
      cases hr : operand r₂ with
      | error e => rw [hr] at h; cases h
      | ok q =>
        obtain ⟨right, r₃⟩ := q
        have h₃ := length_operand hr
        simp only [hr] at h
        cases ho : operator t negated right with
        | error e => rw [ho] at h; cases h
        | ok op =>
          rw [ho] at h
          cases h
          omega

mutual

/-- Takes a formula off the front of a list of tokens. -/
def disjunction (ts : List Token) : Except ConditionError (Parsed ts) :=
  match conjunction ts with
  | .error e => .error e
  | .ok p => moreDisjuncts ts p.formula p.rest p.shorter
termination_by 6 * ts.length + 5
decreasing_by
  · omega
  · have := p.shorter
    omega

/-- Takes further disjuncts, each after an "or". -/
def moreDisjuncts (ts : List Token) (left : Formula) (rest : List Token)
    (h : rest.length < ts.length) : Except ConditionError (Parsed ts) :=
  match rest with
  | .or :: rest' =>
    match conjunction rest' with
    | .error e => .error e
    | .ok p =>
      moreDisjuncts ts (.or left p.formula) p.rest (by
        have := p.shorter
        simp only [List.length_cons] at h
        omega)
  | rest => .ok ⟨left, rest, h⟩
termination_by 6 * rest.length + 4
decreasing_by
  · simp only [List.length_cons]
    omega
  · have := p.shorter
    simp only [List.length_cons]
    omega

/-- Takes a formula without an "or" outside parentheses. -/
def conjunction (ts : List Token) : Except ConditionError (Parsed ts) :=
  match unary ts with
  | .error e => .error e
  | .ok p => moreConjuncts ts p.formula p.rest p.shorter
termination_by 6 * ts.length + 3
decreasing_by
  · omega
  · have := p.shorter
    omega

/-- Takes further conjuncts, each after an "and". -/
def moreConjuncts (ts : List Token) (left : Formula) (rest : List Token)
    (h : rest.length < ts.length) : Except ConditionError (Parsed ts) :=
  match rest with
  | .and :: rest' =>
    match unary rest' with
    | .error e => .error e
    | .ok p =>
      moreConjuncts ts (.and left p.formula) p.rest (by
        have := p.shorter
        simp only [List.length_cons] at h
        omega)
  | rest => .ok ⟨left, rest, h⟩
termination_by 6 * rest.length + 2
decreasing_by
  · simp only [List.length_cons]
    omega
  · have := p.shorter
    simp only [List.length_cons]
    omega

/-- Takes a formula after any number of "not", a formula in parentheses, or a comparison. -/
def unary (ts : List Token) : Except ConditionError (Parsed ts) :=
  match ts with
  | .not :: rest =>
    match unary rest with
    | .error e => .error e
    | .ok p => .ok ⟨.not p.formula, p.rest, by simpa using Nat.lt_succ_of_lt p.shorter⟩
  | .leftParen :: rest =>
    match disjunction rest with
    | .error e => .error e
    | .ok ⟨f, .rightParen :: after, h⟩ => .ok ⟨f, after, by
        simp only [List.length_cons] at h ⊢
        omega⟩
    | .ok _ => .error .missingParenthesis
  | ts =>
    match h : comparison ts with
    | .error e => .error e
    | .ok (f, rest) => .ok ⟨f, rest, length_comparison h⟩
termination_by 6 * ts.length + 1
decreasing_by
  · simp only [List.length_cons]
    omega
  · simp only [List.length_cons]
    omega

end

end Formula.Parser

/-- The formula that a whole list of tokens stands for. -/
def Formula.ofTokens (ts : List Token) : Except ConditionError Formula :=
  match Formula.Parser.disjunction ts with
  | .error e => .error e
  | .ok p => if p.rest.isEmpty then .ok p.formula else .error (.unexpectedTokens p.rest)

end Dialogue
