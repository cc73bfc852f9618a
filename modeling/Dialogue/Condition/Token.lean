import Dialogue.Decimal.Layout
import Dialogue.Decimal.Reader
import Dialogue.Expr
import Dialogue.Text.Quoted

/-!
# Tokens of conditions

The text of a condition is cut into variables, strings, numbers, words and signs. Each kind of
token begins with characters of its own, and a token extends as far as it can.

## Main definitions

* `Token` — the tokens, and `Token.dump`, which shows one in a message
* `ConditionError` — what can be wrong with the text of a condition
* `Token.next` — takes one token off the front of a text
* `Token.ofText` — the tokens of a text
-/

namespace Dialogue

/-- A token of a condition. -/
inductive Token where
  | var (name : String)
  | string (s : String)
  | number (x : Float)
  | bool (b : Bool)
  | null
  | and
  | or
  | not
  | contains
  | isMatch
  | startsWith
  | endsWith
  | eq
  | notEq
  | greater
  | less
  | greaterEq
  | lessEq
  | leftParen
  | rightParen

namespace Token

/-- How a token is shown in a message. -/
def dump : Token → String
  | var name => "Var(" ++ Text.quoted name ++ ")"
  | string s => "Str(" ++ Text.quoted s ++ ")"
  | number x => "Num(" ++ Decimal.Layout.dump.float x ++ ")"
  | bool b => "Bool(" ++ (if b then "true" else "false") ++ ")"
  | null => "Null"
  | and => "And"
  | or => "Or"
  | not => "Not"
  | contains => "Contains"
  | isMatch => "Matches"
  | startsWith => "StartsWith"
  | endsWith => "EndsWith"
  | eq => "Eq"
  | notEq => "NotEq"
  | greater => "Gt"
  | less => "Lt"
  | greaterEq => "Gte"
  | lessEq => "Lte"
  | leftParen => "LParen"
  | rightParen => "RParen"

end Token

/-- What can be wrong with the text of a condition. -/
inductive ConditionError where
  /-- There is nothing but blanks. -/
  | empty
  | unterminatedString
  | invalidVariable (name : String)
  | invalidNumber (text : String)
  | unexpectedWord (word : String)
  | unexpectedCharacter (c : Char)
  /-- A condition is followed by something else. -/
  | unexpectedTokens (rest : List Token)
  | missingParenthesis
  /-- A variable or a value should come next. -/
  | missingOperand (found : Option Token)
  /-- A pattern has to be written out in quotes. -/
  | regexNotQuoted
  | invalidRegex (pattern : String)
  /-- Only operators that are words can be negated. -/
  | notNegatable (operator : Token)

namespace ConditionError

/-- The wording of a mistake in a condition. -/
def message : ConditionError → String
  | empty => "empty condition"
  | unterminatedString => "unterminated string literal"
  | invalidVariable name => s!"invalid variable name: ${name}"
  | invalidNumber text => s!"invalid number: {text}"
  | unexpectedWord word => s!"unexpected word '{word}' (variables are written as ${word})"
  | unexpectedCharacter c => s!"unexpected character: {c}"
  | unexpectedTokens rest =>
    let dumps := ", ".intercalate (rest.map Token.dump)
    s!"unexpected tokens after expression: [{dumps}]"
  | missingParenthesis => "expected closing parenthesis"
  | missingOperand none => "expected variable or value, got None"
  | missingOperand (some t) => s!"expected variable or value, got Some({t.dump})"
  | regexNotQuoted => "MATCHES requires a quoted regex"
  | invalidRegex pattern => s!"invalid regex '{pattern}'"
  | notNegatable operator => s!"cannot negate operator: {operator.dump}"

end ConditionError

namespace Token

/-- The blanks that may stand between tokens. -/
def isGap (c : Char) : Bool := c == ' ' || c == '\t' || c == '\n' || c == '\r'

/-- The token that a word stands for. -/
def ofWord? : String → Option Token
  | "AND" | "and" => some and
  | "OR" | "or" => some or
  | "NOT" | "not" => some not
  | "CONTAINS" | "contains" => some contains
  | "MATCHES" | "matches" => some isMatch
  | "STARTS_WITH" | "starts_with" => some startsWith
  | "ENDS_WITH" | "ends_with" => some endsWith
  | "true" => some (bool true)
  | "false" => some (bool false)
  | "null" => some null
  | _ => none

/-- Takes the rest of a string and its closing quote off the front of a text. A backslash makes the
character after it stand for itself. -/
def stringBody (quote : Char) : List Char → Option (List Char × List Char)
  | [] => none
  | '\\' :: c :: rest => (stringBody quote rest).map fun (s, r) => (c :: s, r)
  | c :: rest =>
    if c == '\\' then none
    else if c == quote then some ([], rest)
    else (stringBody quote rest).map fun (s, r) => (c :: s, r)

/-- Drops an equals sign, and says whether there was one. -/
def dropEquals : List Char → Bool × List Char
  | '=' :: rest => (true, rest)
  | rest => (false, rest)

/-- Whether a character may stand inside a number. -/
def isNumberRest (c : Char) : Bool := c.isDigit || c == '.'

/-- Whether a character may stand at the start of a word. -/
def isWordStart (c : Char) : Bool := Text.isLetter c || c == '_'

/-- Whether a character may stand inside a word. -/
def isWordRest (c : Char) : Bool := Text.isLetter c || Text.isNumeral c || c == '_'

/-- Takes one token off the front of a text that begins with the given character, which is not a
blank. -/
def next (c : Char) (rest : List Char) : Except ConditionError (Token × List Char) :=
  if c == '(' then .ok (leftParen, rest)
  else if c == ')' then .ok (rightParen, rest)
  else if c == '"' || c == '\'' then
    match stringBody c rest with
    | some (s, r) => .ok (string (String.ofList s), r)
    | none => .error .unterminatedString
  else if c == '$' then
    if isIdentifierList (rest.takeWhile isIdentifierRest) then
      .ok (var (String.ofList (rest.takeWhile isIdentifierRest)), rest.dropWhile isIdentifierRest)
    else .error (.invalidVariable (String.ofList (rest.takeWhile isIdentifierRest)))
  else if c == '>' then
    .ok (if (dropEquals rest).1 then greaterEq else greater, (dropEquals rest).2)
  else if c == '<' then
    .ok (if (dropEquals rest).1 then lessEq else less, (dropEquals rest).2)
  else if c == '=' then .ok (eq, (dropEquals rest).2)
  else if c == '!' then
    .ok (if (dropEquals rest).1 then notEq else not, (dropEquals rest).2)
  else if c.isDigit || c == '-' then
    match Decimal.read? (String.ofList (c :: rest.takeWhile isNumberRest)) with
    | some x => .ok (number x, rest.dropWhile isNumberRest)
    | none => .error (.invalidNumber (String.ofList (c :: rest.takeWhile isNumberRest)))
  else if isWordStart c then
    match ofWord? (String.ofList (c :: rest.takeWhile isWordRest)) with
    | some t => .ok (t, rest.dropWhile isWordRest)
    | none => .error (.unexpectedWord (String.ofList (c :: rest.takeWhile isWordRest)))
  else .error (.unexpectedCharacter c)

theorem length_stringBody {quote : Char} {cs s r : List Char}
    (h : stringBody quote cs = some (s, r)) : r.length < cs.length := by
  fun_induction stringBody quote cs generalizing s r with
  | case1 => simp at h
  | case2 c rest ih =>
    obtain ⟨⟨s', r'⟩, h', heq⟩ := Option.map_eq_some_iff.1 h
    have := ih h'
    simp only [Prod.mk.injEq] at heq
    simp only [List.length_cons, ← heq.2]
    omega
  | case3 => simp at h
  | case4 c rest _ _ _ =>
    simp only [Option.some.injEq, Prod.mk.injEq] at h
    simp [← h.2]
  | case5 c rest _ _ _ ih =>
    obtain ⟨⟨s', r'⟩, h', heq⟩ := Option.map_eq_some_iff.1 h
    have := ih h'
    simp only [Prod.mk.injEq] at heq
    simp only [List.length_cons, ← heq.2]
    omega

theorem length_dropEquals (cs : List Char) : (dropEquals cs).2.length ≤ cs.length := by
  unfold dropEquals
  split <;> simp

/-- Every token takes at least the character that it begins with. -/
theorem length_next {c : Char} {cs r : List Char} {t : Token}
    (h : next c cs = .ok (t, r)) : r.length ≤ cs.length := by
  have drop (p : Char → Bool) : (cs.dropWhile p).length ≤ cs.length :=
    (List.dropWhile_suffix p).length_le
  have equals := length_dropEquals cs
  unfold next at h
  repeat' split at h
  all_goals cases h
  all_goals first
    | exact Nat.le_refl _
    | exact drop _
    | exact equals
    | exact Nat.le_of_lt (length_stringBody ‹_›)

/-- The tokens of a text, blanks between them left out. -/
def ofChars (cs : List Char) : Except ConditionError (List Token) :=
  match cs with
  | [] => .ok []
  | c :: rest =>
    if isGap c then ofChars rest
    else
      match _h : next c rest with
      | .error e => .error e
      | .ok (t, r) => (ofChars r).map (t :: ·)
termination_by cs.length
decreasing_by
  · simp
  · have := length_next _h
    simp only [List.length_cons]
    omega

/-- The tokens of a text. -/
def ofText (s : String) : Except ConditionError (List Token) := ofChars s.toList

end Token

end Dialogue
