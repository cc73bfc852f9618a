import Dialogue.Condition.Parser

/-!
# The grammar of conditions

The tokens of a condition are derived from a grammar in which `(…)*` stands for any number of
repetitions:

* disjunction = conjunction (`or` conjunction)*
* conjunction = unary (`and` unary)*
* unary = `not` unary | primary
* primary = `(` disjunction `)` | operand | operand operator operand | operand `not` word operand

A derivation has the tokens that it derives and the formula that it is read as. "Not" stands in the
grammar twice, in front of a formula and in front of the word of a comparison; the token after it
tells the two apart, and so no tokens have two derivations.

## Main definitions

* `Formula.Leaf`, `Formula.IsWord`, `Formula.IsOperator` — operands and operators as they are
  written
* `Formula.Nonterminal`, `Formula.Derivation` — the grammar
* `Formula.Derivation.tokens`, `Formula.Derivation.reading` — what is derived, and what it says

## Main results

* `Formula.Derivation.unique` — tokens have at most one derivation, whatever follows them
* `Formula.Derivation.ofTokens_tokens` — what is derived is read
* `Formula.read_iff_derived` — what is read is what is derived, and reading takes tokens
-/

namespace Dialogue.Formula

/-! ## Operands and operators -/

/-- An operand, as one token writes it. -/
inductive Leaf where
  | var (name : String)
  | string (s : String)
  | number (x : Float)
  | bool (b : Bool)
  | null

namespace Leaf

/-- The token of an operand. -/
def token : Leaf → Token
  | var name => .var name
  | string s => .string s
  | number x => .number x
  | bool b => .bool b
  | null => .null

/-- What an operand stands for in a comparison. -/
def operand : Leaf → Operand
  | var name => .var name
  | string s => .literal (.string s)
  | number x => .literal (.number x)
  | bool b => .literal (.bool b)
  | null => .literal .null

/-- What an operand says by itself: a variable is tested for truth, a value is true or not. -/
def formula : Leaf → Formula
  | var name => .truthy name
  | string s => .literal (Value.string s).isTruthy
  | number x => .literal (Value.number x).isTruthy
  | bool b => .literal (Value.bool b).isTruthy
  | null => .literal Value.null.isTruthy

theorem token_injective {l l' : Leaf} (h : l.token = l'.token) : l = l' := by
  cases l <;> cases l' <;> simp_all [token]

theorem operand?_token (l : Leaf) : l.token.operand? = some l.operand := by
  cases l <;> rfl

theorem bare_operand (l : Leaf) : Parser.bare l.operand = l.formula := by
  cases l <;> rfl

theorem token_ne_not (l : Leaf) : l.token ≠ .not := by
  cases l <;> simp [token]

theorem token_ne_leftParen (l : Leaf) : l.token ≠ .leftParen := by
  cases l <;> simp [token]

/-- Every token that stands for an operand is the token of a leaf. -/
theorem exists_of_operand? {t : Token} {o : Operand} (h : t.operand? = some o) :
    ∃ l : Leaf, l.token = t ∧ l.operand = o := by
  cases t with
  | var name => exact ⟨.var name, rfl, Option.some.inj h⟩
  | string s => exact ⟨.string s, rfl, Option.some.inj h⟩
  | number x => exact ⟨.number x, rfl, Option.some.inj h⟩
  | bool b => exact ⟨.bool b, rfl, Option.some.inj h⟩
  | null => exact ⟨.null, rfl, Option.some.inj h⟩
  | _ => cases h

end Leaf

/-- A token that is a word, the operator that it is, and the operands that may stand on its right:
a pattern has to be written out, and it has to be one that can be read. -/
inductive IsWord : Token → Operator → Leaf → Prop
  | contains (right) : IsWord .contains .contains right
  | isMatch (pattern regex) (h : Regex.read? pattern = some regex) :
    IsWord .isMatch (.isMatch regex) (.string pattern)
  | startsWith (right) : IsWord .startsWith .startsWith right
  | endsWith (right) : IsWord .endsWith .endsWith right

/-- A token that compares, the operator that it is, and the operands that may stand on its right. -/
inductive IsOperator : Token → Operator → Leaf → Prop
  | word {t op right} (h : IsWord t op right) : IsOperator t op right
  | eq (right) : IsOperator .eq .eq right
  | notEq (right) : IsOperator .notEq .notEq right
  | greater (right) : IsOperator .greater .greater right
  | less (right) : IsOperator .less .less right
  | greaterEq (right) : IsOperator .greaterEq .greaterEq right
  | lessEq (right) : IsOperator .lessEq .lessEq right

variable {t : Token} {op op' : Operator} {right : Leaf}

theorem IsWord.unique (h : IsWord t op right) (h' : IsWord t op' right) : op = op' := by
  cases h <;> cases h' <;> simp_all

theorem IsOperator.unique (h : IsOperator t op right) (h' : IsOperator t op' right) : op = op' := by
  cases h with
  | word h =>
    cases h' with
    | word h' => exact h.unique h'
    | _ => cases h
  | _ =>
    cases h' with
    | word h' => cases h'
    | _ => rfl

theorem IsOperator.isOperator (h : IsOperator t op right) : t.isOperator = true := by
  cases h with
  | word h => cases h <;> rfl
  | _ => rfl

theorem IsWord.isOperator (h : IsWord t op right) : t.isOperator = true :=
  (IsOperator.word h).isOperator

theorem IsWord.operator (h : IsWord t op right) (negated : Bool) :
    Parser.operator t negated right.operand = .ok op := by
  cases h with
  | isMatch pattern regex h =>
    simp only [Parser.operator, Leaf.operand, h]
  | _ => rfl

theorem IsOperator.operator (h : IsOperator t op right) :
    Parser.operator t false right.operand = .ok op := by
  cases h with
  | word h => exact h.operator false
  | _ => rfl

/-- Only words are negated. -/
theorem isWord_of_operator (ahead : t.isOperator = true)
    (h : Parser.operator t true right.operand = .ok op) : IsWord t op right := by
  cases t with
  | contains => exact Except.ok.inj h ▸ .contains right
  | startsWith => exact Except.ok.inj h ▸ .startsWith right
  | endsWith => exact Except.ok.inj h ▸ .endsWith right
  | isMatch =>
    unfold Parser.operator at h
    cases right with
    | string pattern =>
      simp only [Leaf.operand] at h
      split at h
      · exact Except.ok.inj h ▸ .isMatch pattern _ ‹_›
      · cases h
    | _ => cases h
  | _ => cases h

theorem isOperator_of_operator (ahead : t.isOperator = true)
    (h : Parser.operator t false right.operand = .ok op) : IsOperator t op right := by
  cases t with
  | contains | startsWith | endsWith | isMatch => exact .word (isWord_of_operator rfl h)
  | eq => exact Except.ok.inj h ▸ .eq right
  | notEq => exact Except.ok.inj h ▸ .notEq right
  | greater => exact Except.ok.inj h ▸ .greater right
  | less => exact Except.ok.inj h ▸ .less right
  | greaterEq => exact Except.ok.inj h ▸ .greaterEq right
  | lessEq => exact Except.ok.inj h ▸ .lessEq right
  | _ => cases ahead

/-! ## Derivations -/

/-- What the grammar derives. `disjuncts` and `conjuncts` are what may follow the first member of a
chain. -/
inductive Nonterminal where
  | disjunction
  | disjuncts
  | conjunction
  | conjuncts
  | unary
  | primary

/-- What a derivation is read as: a formula; what follows the first member of a chain goes on from
the formula to its left. -/
abbrev Nonterminal.Reading : Nonterminal → Type
  | disjuncts | conjuncts => Formula → Formula
  | disjunction | conjunction | unary | primary => Formula

/-- The derivations of the grammar. -/
inductive Derivation : Nonterminal → Type
  | disjunction (first : Derivation .conjunction) (more : Derivation .disjuncts) :
    Derivation .disjunction
  | noDisjunct : Derivation .disjuncts
  | disjunct (next : Derivation .conjunction) (more : Derivation .disjuncts) :
    Derivation .disjuncts
  | conjunction (first : Derivation .unary) (more : Derivation .conjuncts) :
    Derivation .conjunction
  | noConjunct : Derivation .conjuncts
  | conjunct (next : Derivation .unary) (more : Derivation .conjuncts) : Derivation .conjuncts
  | not (inner : Derivation .unary) : Derivation .unary
  | plain (inner : Derivation .primary) : Derivation .unary
  | group (inner : Derivation .disjunction) : Derivation .primary
  | bare (leaf : Leaf) : Derivation .primary
  | compare (left : Leaf) (t : Token) (op : Operator) (right : Leaf) (h : IsOperator t op right) :
    Derivation .primary
  | compareNot (left : Leaf) (t : Token) (op : Operator) (right : Leaf) (h : IsWord t op right) :
    Derivation .primary

namespace Derivation

/-- The tokens that are derived. -/
def tokens {n : Nonterminal} : Derivation n → List Token
  | disjunction first more => first.tokens ++ more.tokens
  | noDisjunct => []
  | disjunct next more => .or :: (next.tokens ++ more.tokens)
  | conjunction first more => first.tokens ++ more.tokens
  | noConjunct => []
  | conjunct next more => .and :: (next.tokens ++ more.tokens)
  | not inner => .not :: inner.tokens
  | plain inner => inner.tokens
  | group inner => .leftParen :: (inner.tokens ++ [.rightParen])
  | bare leaf => [leaf.token]
  | compare left t _ right _ => [left.token, t, right.token]
  | compareNot left t _ right _ => [left.token, .not, t, right.token]

/-- What is said: chains associate to the left. -/
def reading {n : Nonterminal} : Derivation n → n.Reading
  | disjunction first more => more.reading first.reading
  | noDisjunct => fun left => left
  | disjunct next more => fun left => more.reading (.or left next.reading)
  | conjunction first more => more.reading first.reading
  | noConjunct => fun left => left
  | conjunct next more => fun left => more.reading (.and left next.reading)
  | not inner => Formula.not inner.reading
  | plain inner => inner.reading
  | group inner => inner.reading
  | bare leaf => leaf.formula
  | compare left _ op right _ => Formula.compare left.operand op false right.operand
  | compareNot left _ op right _ => Formula.compare left.operand op true right.operand

end Derivation

/-! ## What may follow -/

/-- Tokens that leave what stands before them as it is. -/
def Nonterminal.Ends : Nonterminal → List Token → Prop
  | disjunction, rest | disjuncts, rest =>
    Parser.operatorAhead? rest = none ∧ rest.head? ≠ some .and ∧ rest.head? ≠ some .or
  | conjunction, rest | conjuncts, rest =>
    Parser.operatorAhead? rest = none ∧ rest.head? ≠ some .and
  | unary, rest | primary, rest => Parser.operatorAhead? rest = none

theorem operatorAhead?_operator (h : t.isOperator = true) (rest : List Token) :
    Parser.operatorAhead? (t :: rest) = some (false, t, rest) := by
  cases t <;> first | rfl | cases h

theorem operatorAhead?_not (h : t.isOperator = true) (rest : List Token) :
    Parser.operatorAhead? (.not :: t :: rest) = some (true, t, rest) := by
  simp [Parser.operatorAhead?, h]

theorem not_ends_operator (h : t.isOperator = true) (rest : List Token) :
    ¬Nonterminal.primary.Ends (t :: rest) := by
  simp [Nonterminal.Ends, operatorAhead?_operator h]

theorem not_ends_not (h : t.isOperator = true) (rest : List Token) :
    ¬Nonterminal.primary.Ends (.not :: t :: rest) := by
  simp [Nonterminal.Ends, operatorAhead?_not h]

theorem ends_nil : Nonterminal.disjunction.Ends [] := by
  simp [Nonterminal.Ends, Parser.operatorAhead?]

theorem ends_rightParen (rest : List Token) :
    Nonterminal.disjunction.Ends (.rightParen :: rest) := by
  simp [Nonterminal.Ends, Parser.operatorAhead?, Token.isOperator]

variable {rest rest' : List Token}

theorem ends_conjuncts (more : Derivation .conjuncts) (h : Nonterminal.conjunction.Ends rest) :
    Nonterminal.unary.Ends (more.tokens ++ rest) := by
  cases more with
  | noConjunct => exact h.1
  | conjunct next more => rfl

theorem ends_disjuncts (more : Derivation .disjuncts) (h : Nonterminal.disjunction.Ends rest) :
    Nonterminal.conjunction.Ends (more.tokens ++ rest) := by
  cases more with
  | noDisjunct => exact ⟨h.1, h.2.1⟩
  | disjunct next more => exact ⟨rfl, by simp [Derivation.tokens]⟩

/-! ## One derivation -/

namespace Derivation

/-- What is derived has a token at its front, and only where a formula is negated is it a "not". -/
theorem exists_cons_primary (d : Derivation .primary) :
    ∃ t ts, d.tokens = t :: ts ∧ t ≠ .not := by
  cases d with
  | group inner => exact ⟨_, _, rfl, by simp⟩
  | bare leaf => exact ⟨_, _, rfl, leaf.token_ne_not⟩
  | compare left t op right h => exact ⟨_, _, rfl, left.token_ne_not⟩
  | compareNot left t op right h => exact ⟨_, _, rfl, left.token_ne_not⟩

/-- What stands on both sides of an operator is what is compared. -/
theorem comparison_injective {left left' right right' : Leaf}
    (same : left.token :: t :: right.token :: rest = left'.token :: t' :: right'.token :: rest') :
    left = left' ∧ t = t' ∧ right = right' ∧ rest = rest' := by
  simp only [List.cons.injEq] at same
  obtain ⟨hl, ht, hr, after⟩ := same
  exact ⟨Leaf.token_injective hl, ht, Leaf.token_injective hr, after⟩

/-- A phrase that begins with an operand is told by the one or two tokens behind it. -/
theorem unique_ungrouped (d d' : Derivation .primary) (ungrouped : ∀ inner, d ≠ group inner)
    (ends : Nonterminal.primary.Ends rest) (ends' : Nonterminal.primary.Ends rest')
    (same : d.tokens ++ rest = d'.tokens ++ rest') : d = d' ∧ rest = rest' := by
  -- If the two phrases are of different kinds, the longer one goes on with an operator, in front of
  -- which the shorter one cannot end.
  cases d with
  | group inner => exact absurd rfl (ungrouped inner)
  | bare leaf =>
    cases d' with
    | group inner' => exact absurd (List.cons.inj same).1 leaf.token_ne_leftParen
    | bare leaf' =>
      obtain ⟨head, after⟩ := List.cons.inj same
      exact ⟨congrArg bare (Leaf.token_injective head), after⟩
    | compare left' t' op' right' h' =>
      have behind : rest = t' :: right'.token :: rest' := (List.cons.inj same).2
      exact absurd (behind ▸ ends) (not_ends_operator h'.isOperator _)
    | compareNot left' t' op' right' h' =>
      have behind : rest = .not :: t' :: right'.token :: rest' := (List.cons.inj same).2
      exact absurd (behind ▸ ends) (not_ends_not h'.isOperator _)
  | compare left t op right h =>
    cases d' with
    | group inner' => exact absurd (List.cons.inj same).1 left.token_ne_leftParen
    | bare leaf' =>
      have behind : t :: right.token :: rest = rest' := (List.cons.inj same).2
      exact absurd (behind ▸ ends') (not_ends_operator h.isOperator _)
    | compare left' t' op' right' h' =>
      obtain ⟨rfl, rfl, rfl, after⟩ := comparison_injective same
      obtain rfl := h.unique h'
      exact ⟨rfl, after⟩
    | compareNot left' t' op' right' h' =>
      have operator : t = .not := (List.cons.inj (List.cons.inj same).2).1
      exact absurd h.isOperator (by simp [operator, Token.isOperator])
  | compareNot left t op right h =>
    cases d' with
    | group inner' => exact absurd (List.cons.inj same).1 left.token_ne_leftParen
    | bare leaf' =>
      have behind : .not :: t :: right.token :: rest = rest' := (List.cons.inj same).2
      exact absurd (behind ▸ ends') (not_ends_not h.isOperator _)
    | compare left' t' op' right' h' =>
      have operator : .not = t' := (List.cons.inj (List.cons.inj same).2).1
      exact absurd h'.isOperator (by simp [← operator, Token.isOperator])
    | compareNot left' t' op' right' h' =>
      obtain ⟨head, behind⟩ := List.cons.inj same
      obtain ⟨rfl, rfl, rfl, after⟩ :=
        comparison_injective (List.cons_eq_cons.2 ⟨head, (List.cons.inj behind).2⟩)
      obtain rfl := h.unique h'
      exact ⟨rfl, after⟩

/-- Tokens have at most one derivation, whatever follows them, as long as it leaves them as they
are. -/
theorem unique {n : Nonterminal} (d d' : Derivation n) (ends : n.Ends rest) (ends' : n.Ends rest')
    (same : d.tokens ++ rest = d'.tokens ++ rest') : d = d' ∧ rest = rest' := by
  induction d generalizing rest rest' with
  | disjunction first more ihFirst ihMore =>
    cases d' with
    | disjunction first' more' =>
      simp only [tokens, List.append_assoc] at same
      -- The first part ends in front of what follows it, whether that is another part or not.
      obtain ⟨rfl, after⟩ :=
        ihFirst first' (ends_disjuncts more ends) (ends_disjuncts more' ends') same
      exact And.imp_left (congrArg (disjunction first)) (ihMore more' ends ends' after)
  | noDisjunct =>
    cases d' with
    | noDisjunct => exact ⟨rfl, same⟩
    -- Nothing ends in front of another part of the same phrase.
    | disjunct next more => exact absurd (congrArg List.head? same) ends.2.2
  | disjunct next more ihNext ihMore =>
    cases d' with
    | noDisjunct => exact absurd (congrArg List.head? same.symm) ends'.2.2
    | disjunct next' more' =>
      simp only [tokens, List.cons_append, List.append_assoc, List.cons.injEq, true_and] at same
      obtain ⟨rfl, after⟩ :=
        ihNext next' (ends_disjuncts more ends) (ends_disjuncts more' ends') same
      exact And.imp_left (congrArg (disjunct next)) (ihMore more' ends ends' after)
  | conjunction first more ihFirst ihMore =>
    cases d' with
    | conjunction first' more' =>
      simp only [tokens, List.append_assoc] at same
      obtain ⟨rfl, after⟩ :=
        ihFirst first' (ends_conjuncts more ends) (ends_conjuncts more' ends') same
      exact And.imp_left (congrArg (conjunction first)) (ihMore more' ends ends' after)
  | noConjunct =>
    cases d' with
    | noConjunct => exact ⟨rfl, same⟩
    | conjunct next more => exact absurd (congrArg List.head? same) ends.2
  | conjunct next more ihNext ihMore =>
    cases d' with
    | noConjunct => exact absurd (congrArg List.head? same.symm) ends'.2
    | conjunct next' more' =>
      simp only [tokens, List.cons_append, List.append_assoc, List.cons.injEq, true_and] at same
      obtain ⟨rfl, after⟩ :=
        ihNext next' (ends_conjuncts more ends) (ends_conjuncts more' ends') same
      exact And.imp_left (congrArg (conjunct next)) (ihMore more' ends ends' after)
  | not inner ih =>
    cases d' with
    | not inner' =>
      exact And.imp_left (congrArg not) (ih inner' ends ends' (List.cons.inj same).2)
    | plain inner' =>
      -- A phrase that is not negated does not begin with a negation.
      obtain ⟨t, ts, eq, hne⟩ := inner'.exists_cons_primary
      simp only [tokens, eq, List.cons_append, List.cons.injEq] at same
      exact absurd same.1.symm hne
  | plain inner ih =>
    cases d' with
    | not inner' =>
      obtain ⟨t, ts, eq, hne⟩ := inner.exists_cons_primary
      simp only [tokens, eq, List.cons_append, List.cons.injEq] at same
      exact absurd same.1 hne
    | plain inner' =>
      exact And.imp_left (congrArg plain) (ih inner' ends ends' same)
  | group inner ih =>
    cases d' with
    | group inner' =>
      simp only [tokens, List.cons_append, List.append_assoc, List.cons.injEq, true_and] at same
      -- Inside the parentheses both end in front of the closing one.
      obtain ⟨rfl, after⟩ := ih inner' (ends_rightParen _) (ends_rightParen _) same
      exact ⟨rfl, (List.cons.inj after).2⟩
    | _ => exact absurd (List.cons.inj same).1.symm (Leaf.token_ne_leftParen _)
  | bare leaf => exact unique_ungrouped _ d' (by simp) ends ends' same
  | compare left t op right h => exact unique_ungrouped _ d' (by simp) ends ends' same
  | compareNot left t op right h => exact unique_ungrouped _ d' (by simp) ends ends' same

end Derivation

/-! ## What is derived is read -/

/-- Reading takes these tokens off, and leaves the rest. -/
def Nonterminal.Takes : (n : Nonterminal) → List Token → n.Reading → List Token → Prop
  | disjunction, ts, f, rest => ∃ h, Parser.disjunction ts = .ok ⟨f, rest, h⟩
  | conjunction, ts, f, rest => ∃ h, Parser.conjunction ts = .ok ⟨f, rest, h⟩
  | unary, ts, f, rest | primary, ts, f, rest => ∃ h, Parser.unary ts = .ok ⟨f, rest, h⟩
  | disjuncts, ts, f, rest =>
    ∀ all left h, ∃ h', Parser.moreDisjuncts all left ts h = .ok ⟨f left, rest, h'⟩
  | conjuncts, ts, f, rest =>
    ∀ all left h, ∃ h', Parser.moreConjuncts all left ts h = .ok ⟨f left, rest, h'⟩

theorem operand_token (l : Leaf) (rest : List Token) :
    Parser.operand (l.token :: rest) = .ok (l.operand, rest) := by
  simp only [Parser.operand, l.operand?_token]

theorem comparison_bare (l : Leaf) (h : Parser.operatorAhead? rest = none) :
    Parser.comparison (l.token :: rest) = .ok (l.formula, rest) := by
  simp only [Parser.comparison, operand_token, bind, Except.bind, h, pure, Except.pure,
    l.bare_operand]

theorem comparison_operator {ahead : List Token} {negated : Bool} (l : Leaf)
    (h : Parser.operatorAhead? ahead = some (negated, t, right.token :: rest))
    (ok : Parser.operator t negated right.operand = .ok op) :
    Parser.comparison (l.token :: ahead) =
      .ok (.compare l.operand op negated right.operand, rest) := by
  simp only [Parser.comparison, operand_token, bind, Except.bind, h, ok, pure, Except.pure]

/-- A comparison stands where neither a "not" nor a parenthesis does. -/
theorem takes_comparison {f : Formula} {ts : List Token} (notNot : ts.head? ≠ some .not)
    (notParen : ts.head? ≠ some .leftParen) (h : Parser.comparison ts = .ok (f, rest)) :
    Nonterminal.primary.Takes ts f rest := by
  refine ⟨Parser.length_comparison h, ?_⟩
  unfold Parser.unary
  split
  · exact absurd rfl notNot
  · exact absurd rfl notParen
  · split <;> rename_i taken <;> cases h.symm.trans taken
    rfl

theorem takes_leaf {f : Formula} {ts : List Token} (l : Leaf)
    (h : Parser.comparison (l.token :: ts) = .ok (f, rest)) :
    Nonterminal.primary.Takes (l.token :: ts) f rest :=
  takes_comparison (fun eq => l.token_ne_not (Option.some.inj eq))
    (fun eq => l.token_ne_leftParen (Option.some.inj eq)) h

theorem Derivation.takes_tokens {n : Nonterminal} (d : Derivation n) (ends : n.Ends rest) :
    n.Takes (d.tokens ++ rest) d.reading rest := by
  induction d generalizing rest with
  | disjunction first more ihFirst ihMore =>
    obtain ⟨h, taken⟩ := ihFirst (ends_disjuncts more ends)
    -- The reader goes on with what it has read so far, which is now the first part.
    obtain ⟨h', goesOn⟩ := ihMore ends (first.tokens ++ (more.tokens ++ rest)) first.reading h
    rw [tokens, List.append_assoc]
    refine ⟨h', ?_⟩
    rw [Parser.disjunction, taken]
    exact goesOn
  | noDisjunct =>
    intro all left h
    refine ⟨h, ?_⟩
    rw [Parser.moreDisjuncts]
    · rfl
    -- What follows is no further part, so the reader stops.
    · intro ts _ eq _
      exact ends.2.2 (congrArg List.head? eq)
  | disjunct next more ihNext ihMore =>
    obtain ⟨shorter, taken⟩ := ihNext (ends_disjuncts more ends)
    rw [tokens, List.cons_append, List.append_assoc]
    -- Whatever has been read before, the next part is joined to it.
    intro all left h
    rw [Parser.moreDisjuncts, taken]
    exact ihMore ends all _ _
  | conjunction first more ihFirst ihMore =>
    obtain ⟨h, taken⟩ := ihFirst (ends_conjuncts more ends)
    obtain ⟨h', goesOn⟩ := ihMore ends (first.tokens ++ (more.tokens ++ rest)) first.reading h
    rw [tokens, List.append_assoc]
    refine ⟨h', ?_⟩
    rw [Parser.conjunction, taken]
    exact goesOn
  | noConjunct =>
    intro all left h
    refine ⟨h, ?_⟩
    rw [Parser.moreConjuncts]
    · rfl
    · intro ts _ eq _
      exact ends.2 (congrArg List.head? eq)
  | conjunct next more ihNext ihMore =>
    obtain ⟨shorter, taken⟩ := ihNext (ends_conjuncts more ends)
    rw [tokens, List.cons_append, List.append_assoc]
    intro all left h
    rw [Parser.moreConjuncts, taken]
    exact ihMore ends all _ _
  | not inner ih =>
    obtain ⟨h, taken⟩ := ih ends
    rw [tokens, List.cons_append]
    refine ⟨Nat.lt_succ_of_lt h, ?_⟩
    rw [Parser.unary, taken]
    rfl
  | plain inner ih => exact ih ends
  | group inner ih =>
    obtain ⟨h, taken⟩ := ih (ends_rightParen rest)
    rw [tokens, List.cons_append, List.append_assoc]
    refine ⟨Nat.lt_trans (Nat.lt_of_succ_lt h) (Nat.lt_succ_self _), ?_⟩
    rw [Parser.unary]
    simp only [List.singleton_append, taken]
    rfl
  | bare leaf => exact takes_leaf leaf (comparison_bare leaf ends)
  | compare left t op right h =>
    exact takes_leaf left
      (comparison_operator left (operatorAhead?_operator h.isOperator _) h.operator)
  | compareNot left t op right h =>
    exact takes_leaf left
      (comparison_operator left (operatorAhead?_not h.isOperator _) (h.operator true))

/-! ## What is read is derived -/

/-- Tokens off the front of which a phrase with this reading is derived. -/
def Nonterminal.Derives (n : Nonterminal) (ts : List Token) (f : n.Reading)
    (rest : List Token) : Prop :=
  ∃ d : Derivation n, d.tokens ++ rest = ts ∧ d.reading = f

variable {ts : List Token} {f : Formula}

theorem exists_of_operand {o : Operand} (h : Parser.operand ts = .ok (o, rest)) :
    ∃ l : Leaf, ts = l.token :: rest ∧ l.operand = o := by
  cases ts with
  | nil => cases h
  | cons t ts =>
    simp only [Parser.operand] at h
    split at h
    · obtain ⟨l, rfl, same⟩ := Leaf.exists_of_operand? ‹_›
      cases h
      exact ⟨l, rfl, same⟩
    · cases h

theorem eq_of_operatorAhead? {negated : Bool}
    (h : Parser.operatorAhead? ts = some (negated, t, rest)) :
    t.isOperator = true ∧
      (negated = true ∧ ts = .not :: t :: rest ∨ negated = false ∧ ts = t :: rest) := by
  unfold Parser.operatorAhead? at h
  split at h
  · split at h <;> cases h
    exact ⟨‹_›, .inl ⟨rfl, rfl⟩⟩
  · split at h <;> cases h
    exact ⟨‹_›, .inr ⟨rfl, rfl⟩⟩
  · cases h

theorem derives_of_comparison (h : Parser.comparison ts = .ok (f, rest)) :
    Nonterminal.primary.Derives ts f rest := by
  unfold Parser.comparison at h
  cases onLeft : Parser.operand ts with
  | error e => rw [onLeft] at h; cases h
  | ok p =>
    obtain ⟨left, after⟩ := p
    obtain ⟨l, rfl, rfl⟩ := exists_of_operand onLeft
    simp only [onLeft, bind, Except.bind] at h
    split at h
    · cases h
      exact ⟨.bare l, rfl, l.bare_operand.symm⟩
    · next negated t after' ahead =>
      -- An operator stands behind the first operand, so there is a second one.
      cases onRight : Parser.operand after' with
      | error e => rw [onRight] at h; cases h
      | ok p =>
        obtain ⟨right, after'⟩ := p
        obtain ⟨r, rfl, rfl⟩ := exists_of_operand onRight
        simp only [onRight] at h
        cases between : Parser.operator t negated r.operand with
        | error e => rw [between] at h; cases h
        | ok op =>
          rw [between] at h
          cases h
          -- The operator may have been found behind a negation.
          obtain ⟨isOp, ⟨rfl, rfl⟩ | ⟨rfl, rfl⟩⟩ := eq_of_operatorAhead? ahead
          · exact ⟨.compareNot l t op r (isWord_of_operator isOp between), rfl, rfl⟩
          · exact ⟨.compare l t op r (isOperator_of_operator isOp between), rfl, rfl⟩

mutual

theorem derives_of_disjunction {ts : List Token} {p : Parser.Parsed ts}
    (h : Parser.disjunction ts = .ok p) :
    Nonterminal.disjunction.Derives ts p.formula p.rest := by
  rw [Parser.disjunction] at h
  split at h
  · cases h
  · next q taken =>
    have shorter := q.shorter
    obtain ⟨first, same, read⟩ := derives_of_conjunction taken
    obtain ⟨more, same', read'⟩ := derives_of_moreDisjuncts h
    exact ⟨.disjunction first more, by rw [Derivation.tokens, List.append_assoc, same', same],
      by rw [Derivation.reading, read, read']⟩
termination_by 6 * ts.length + 5

theorem derives_of_moreDisjuncts {all ts : List Token} {left : Formula} {shorter}
    {p : Parser.Parsed all} (h : Parser.moreDisjuncts all left ts shorter = .ok p) :
    ∃ more : Derivation .disjuncts, more.tokens ++ p.rest = ts ∧ more.reading left = p.formula := by
  rw [Parser.moreDisjuncts.eq_def] at h
  split at h
  · split at h
    · cases h
    · next q taken =>
      have shorter := q.shorter
      obtain ⟨next, same, read⟩ := derives_of_conjunction taken
      obtain ⟨more, same', read'⟩ := derives_of_moreDisjuncts h
      exact ⟨.disjunct next more,
        by rw [Derivation.tokens, List.cons_append, List.append_assoc, same', same],
        by rw [← read', ← read]; rfl⟩
  · cases h
    exact ⟨.noDisjunct, rfl, rfl⟩
termination_by 6 * ts.length + 4
decreasing_by all_goals subst_vars; simp only [List.length_cons]; omega

theorem derives_of_conjunction {ts : List Token} {p : Parser.Parsed ts}
    (h : Parser.conjunction ts = .ok p) :
    Nonterminal.conjunction.Derives ts p.formula p.rest := by
  rw [Parser.conjunction] at h
  split at h
  · cases h
  · next q taken =>
    have shorter := q.shorter
    obtain ⟨first, same, read⟩ := derives_of_unary taken
    obtain ⟨more, same', read'⟩ := derives_of_moreConjuncts h
    exact ⟨.conjunction first more, by rw [Derivation.tokens, List.append_assoc, same', same],
      by rw [Derivation.reading, read, read']⟩
termination_by 6 * ts.length + 3

theorem derives_of_moreConjuncts {all ts : List Token} {left : Formula} {shorter}
    {p : Parser.Parsed all} (h : Parser.moreConjuncts all left ts shorter = .ok p) :
    ∃ more : Derivation .conjuncts, more.tokens ++ p.rest = ts ∧ more.reading left = p.formula := by
  rw [Parser.moreConjuncts.eq_def] at h
  split at h
  · split at h
    · cases h
    · next q taken =>
      have shorter := q.shorter
      obtain ⟨next, same, read⟩ := derives_of_unary taken
      obtain ⟨more, same', read'⟩ := derives_of_moreConjuncts h
      exact ⟨.conjunct next more,
        by rw [Derivation.tokens, List.cons_append, List.append_assoc, same', same],
        by rw [← read', ← read]; rfl⟩
  · cases h
    exact ⟨.noConjunct, rfl, rfl⟩
termination_by 6 * ts.length + 2
decreasing_by all_goals subst_vars; simp only [List.length_cons]; omega

theorem derives_of_unary {ts : List Token} {p : Parser.Parsed ts}
    (h : Parser.unary ts = .ok p) :
    Nonterminal.unary.Derives ts p.formula p.rest := by
  rw [Parser.unary.eq_def] at h
  -- A negation, a phrase in parentheses, or a comparison: each case of the reader is a rule.
  split at h
  · split at h
    · cases h
    · next q taken =>
      have shorter := q.shorter
      cases h
      obtain ⟨inner, same, read⟩ := derives_of_unary taken
      exact ⟨.not inner, by rw [Derivation.tokens, List.cons_append, same],
        by rw [Derivation.reading, read]⟩
  · split at h
    · cases h
    · next f after shorter taken =>
      cases h
      obtain ⟨inner, same, read⟩ := derives_of_disjunction taken
      exact ⟨.plain (.group inner),
        by simpa [Derivation.tokens] using same, read⟩
    · cases h
  · split at h
    · cases h
    · next taken =>
      cases h
      obtain ⟨inner, same, read⟩ := derives_of_comparison taken
      exact ⟨.plain inner, same, read⟩
termination_by 6 * ts.length + 1

end

/-! ## Whole lists of tokens -/

/-- What is derived is read, and means what the derivation says. -/
theorem Derivation.ofTokens_tokens (d : Derivation .disjunction) :
    ofTokens d.tokens = .ok d.reading := by
  have taken := d.takes_tokens ends_nil
  rw [List.append_nil] at taken
  obtain ⟨h, taken⟩ := taken
  simp only [ofTokens, taken]
  rfl

/-- What is read is derived. -/
theorem exists_of_ofTokens (h : ofTokens ts = .ok f) :
    ∃ d : Derivation .disjunction, d.tokens = ts ∧ d.reading = f := by
  unfold ofTokens at h
  split at h
  · cases h
  · next p taken =>
    obtain ⟨d, same, read⟩ := derives_of_disjunction taken
    split at h
    · next none =>
      cases h
      rw [List.isEmpty_iff.1 none, List.append_nil] at same
      exact ⟨d, same, read⟩
    · cases h

/-- Tokens are read just where the grammar derives them. The derivation is the only one, and the
formula is what it says. Each function of the reader takes at least one token, and the tokens that
it takes are derived from what it reads. -/
theorem read_iff_derived (ts : List Token) :
    (∀ f, ofTokens ts = .ok f ↔ ∃ d : Derivation .disjunction, d.tokens = ts ∧ d.reading = f) ∧
    (∀ d d' : Derivation .disjunction, d.tokens = ts → d'.tokens = ts → d = d') ∧
    (∀ p, Parser.disjunction ts = .ok p →
      p.rest.length < ts.length ∧ Nonterminal.disjunction.Derives ts p.formula p.rest) ∧
    (∀ p, Parser.conjunction ts = .ok p →
      p.rest.length < ts.length ∧ Nonterminal.conjunction.Derives ts p.formula p.rest) ∧
    (∀ p, Parser.unary ts = .ok p →
      p.rest.length < ts.length ∧ Nonterminal.unary.Derives ts p.formula p.rest) ∧
    (∀ f rest, Parser.comparison ts = .ok (f, rest) →
      rest.length < ts.length ∧ Nonterminal.primary.Derives ts f rest) ∧
    ∀ o rest, Parser.operand ts = .ok (o, rest) →
      ∃ leaf : Leaf, ts = leaf.token :: rest ∧ leaf.operand = o := by
  refine ⟨fun f => ⟨exists_of_ofTokens, ?_⟩, ?_, fun p h => ⟨p.shorter, derives_of_disjunction h⟩,
    fun p h => ⟨p.shorter, derives_of_conjunction h⟩, fun p h => ⟨p.shorter, derives_of_unary h⟩,
    fun f rest h => ⟨Parser.length_comparison h, derives_of_comparison h⟩,
    fun o rest h => exists_of_operand h⟩
  · rintro ⟨d, rfl, rfl⟩
    exact d.ofTokens_tokens
  · rintro d d' rfl same
    exact (d.unique d' ends_nil ends_nil (by rw [same])).1

end Dialogue.Formula
