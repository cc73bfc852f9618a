import Dialogue.Error

/-!
# Expressions

What a flow sends, starts, assigns and passes on is written as a value in which strings may refer
to variables. The string `$name` is a reference, a string with `{$name}` in it is a template, lists
and maps are evaluated part by part, and everything else stands for itself.

## Main definitions

* `isIdentifier`, `variableName?` — what counts as a reference
* `Expr`, `Expr.ofValue`, `Expr.toValue` — expressions and their source form
* `Expr.variableNames`, `Expr.eval` — what an expression reads, and its value
-/

namespace Dialogue

/-- Whether a character may stand at the start of an identifier. -/
def isIdentifierStart (c : Char) : Bool := c.isAlpha || c == '_'

/-- Whether a character may stand inside an identifier. -/
def isIdentifierRest (c : Char) : Bool := c.isAlphanum || c == '_'

/-- An identifier is an ASCII letter or an underscore, then such letters, digits and underscores. -/
def isIdentifierList : List Char → Bool
  | [] => false
  | c :: cs => isIdentifierStart c && cs.all isIdentifierRest

theorem isIdentifierRest_of_start {c : Char} (h : isIdentifierStart c = true) :
    isIdentifierRest c = true := by
  simp only [isIdentifierStart, isIdentifierRest, Char.isAlphanum, Bool.or_eq_true] at h ⊢
  exact h.imp_left .inl

theorem isIdentifierRest_of_isIdentifierList {name : List Char}
    (h : isIdentifierList name = true) : ∀ c ∈ name, isIdentifierRest c = true := by
  cases name with
  | nil => cases h
  | cons c cs =>
    rw [isIdentifierList, Bool.and_eq_true, List.all_eq_true] at h
    exact List.forall_mem_cons.2 ⟨isIdentifierRest_of_start h.1, h.2⟩

/-- Whether a text is an identifier. -/
def isIdentifier (s : String) : Bool := isIdentifierList s.toList

/-- The variable that a text refers to, if it is a dollar sign before an identifier. -/
def variableName? (s : String) : Option String :=
  match s.toList with
  | '$' :: name => if isIdentifierList name then some (String.ofList name) else none
  | _ => none

/-- A source of values for variables. -/
abbrev Scope := String → Option Value

/-- A part of a template. -/
inductive Segment where
  | text (s : String)
  | var (name : String)
  deriving DecidableEq

/-- An expression. The entries of a map are in key order. -/
inductive Expr where
  | literal (v : Value)
  | var (name : String)
  | template (segments : List Segment)
  | list (items : List Expr)
  | map (entries : List (String × Expr))
  deriving Inhabited

namespace Segment

/-- Takes a placeholder off the front of a text: an identifier between an opening brace with a
dollar sign and the next closing brace. -/
def placeholder? : List Char → Option (List Char × List Char)
  | '\x7b' :: '$' :: cs =>
    match cs.dropWhile (· != '\x7d') with
    | _ :: rest =>
      if isIdentifierList (cs.takeWhile (· != '\x7d')) then
        some (cs.takeWhile (· != '\x7d'), rest)
      else none
    | [] => none
  | _ => none

theorem length_of_placeholder? {cs name rest : List Char}
    (h : placeholder? cs = some (name, rest)) : rest.length < cs.length := by
  unfold placeholder? at h
  split at h
  · next cs =>
    split at h
    · next c r hr =>
      have hle := (List.dropWhile_suffix (l := cs) (· != '\x7d')).length_le
      rw [hr] at hle
      split at h
      · simp only [Option.some.injEq, Prod.mk.injEq] at h
        simp only [List.length_cons] at hle ⊢
        rw [← h.2]
        omega
      · simp at h
    · simp at h
  · simp at h

/-- Cuts a text at its placeholders: the text before the first one, and each variable with the
text that follows it. -/
def cut (cs : List Char) : List Char × List (List Char × List Char) :=
  match _h : placeholder? cs with
  | some (name, rest) => let (next, parts) := cut rest; ([], (name, next) :: parts)
  | none =>
    match cs with
    | [] => ([], [])
    | c :: cs => let (before, parts) := cut cs; (c :: before, parts)
termination_by cs.length
decreasing_by
  · exact length_of_placeholder? _h
  · simp

/-- The segment of a text, none for the empty text. -/
def ofText (cs : List Char) : List Segment :=
  if cs.isEmpty then [] else [.text (String.ofList cs)]

/-- The segments of a text with placeholders, if there is a placeholder in it. -/
def parse? (s : String) : Option (List Segment) :=
  match cut s.toList with
  | (_, []) => none
  | (before, parts) =>
    some (ofText before ++ parts.flatMap fun (name, after) =>
      .var (String.ofList name) :: ofText after)

/-- How a segment is written. -/
def source : Segment → String
  | text s => s
  | var name => "\x7b$" ++ name ++ "\x7d"

/-- The variable that a segment reads. -/
def reads? : Segment → Option String
  | text _ => none
  | var name => some name

end Segment

namespace Expr

/-- The expression that a string stands for. -/
def ofString (s : String) : Expr :=
  match variableName? s with
  | some name => .var name
  | none =>
    match Segment.parse? s with
    | some segments => .template segments
    | none => .literal (.string s)

mutual

/-- The expression that a value stands for in source form. -/
def ofValue : Value → Expr
  | .string s => ofString s
  | .list xs => .list (itemsOfValue xs)
  | .map es => .map (entriesOfValue es)
  | v => .literal v

/-- The expressions of the items of a list. -/
def itemsOfValue : List Value → List Expr
  | [] => []
  | x :: xs => ofValue x :: itemsOfValue xs

/-- The expressions of the entries of a map. -/
def entriesOfValue : List (String × Value) → List (String × Expr)
  | [] => []
  | (k, x) :: es => (k, ofValue x) :: entriesOfValue es

end

mutual

/-- The source form of an expression. -/
def toValue : Expr → Value
  | literal v => v
  | var name => .string ("$" ++ name)
  | template segments => .string (String.join (segments.map Segment.source))
  | list items => .list (itemsToValue items)
  | map entries => .map (entriesToValue entries)

/-- The source forms of the items of a list. -/
def itemsToValue : List Expr → List Value
  | [] => []
  | e :: es => toValue e :: itemsToValue es

/-- The source forms of the entries of a map. -/
def entriesToValue : List (String × Expr) → List (String × Value)
  | [] => []
  | (k, e) :: es => (k, toValue e) :: entriesToValue es

end

mutual

/-- The variables that an expression reads, in the order in which it reads them. -/
def variableNames : Expr → List String
  | literal _ => []
  | var name => [name]
  | template segments => segments.filterMap Segment.reads?
  | list items => itemVariableNames items
  | map entries => entryVariableNames entries

/-- The variables of the items of a list. -/
def itemVariableNames : List Expr → List String
  | [] => []
  | e :: es => variableNames e ++ itemVariableNames es

/-- The variables of the entries of a map. -/
def entryVariableNames : List (String × Expr) → List String
  | [] => []
  | (_, e) :: es => variableNames e ++ entryVariableNames es

end

/-- The value of a variable; a variable without one is an error. -/
def resolve (scope : Scope) (name : String) : Except FlowError Value :=
  match scope name with
  | some v => .ok v
  | none => .error (.unbound name)

/-- The text of a segment, a variable being rendered. -/
def segmentText (scope : Scope) : Segment → Except FlowError String
  | .text s => .ok s
  | .var name => (resolve scope name).map Value.render

mutual

/-- The value of an expression. Parts are evaluated from left to right, and the first variable
without a value is the error. -/
def eval (scope : Scope) : Expr → Except FlowError Value
  | literal v => .ok v
  | var name => resolve scope name
  | template segments => do
    let parts ← segments.mapM (segmentText scope)
    return .string (String.join parts)
  | list items => do
    let values ← evalItems scope items
    return .list values
  | map entries => do
    let values ← evalEntries scope entries
    return .map values

/-- The values of the items of a list. -/
def evalItems (scope : Scope) : List Expr → Except FlowError (List Value)
  | [] => .ok []
  | e :: es => do
    let v ← eval scope e
    let vs ← evalItems scope es
    return v :: vs

/-- The values of the entries of a map. -/
def evalEntries (scope : Scope) :
    List (String × Expr) → Except FlowError (List (String × Value))
  | [] => .ok []
  | (k, e) :: es => do
    let v ← eval scope e
    let vs ← evalEntries scope es
    return (k, v) :: vs

end

/-- The values of named expressions, evaluated in the order of their names. -/
def evalArguments (scope : Scope) (arguments : Table String Expr) : Except FlowError Params :=
  arguments.traverse fun _ e => e.eval scope

/-- The named expressions of named values in source form. -/
def argumentsOfParams (p : Params) : Table String Expr := p.map fun _ v => ofValue v

/-- The source form of named expressions. -/
def argumentsToParams (arguments : Table String Expr) : Params := arguments.map fun _ e => e.toValue

end Expr

end Dialogue
