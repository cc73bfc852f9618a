import Dialogue.Decimal.Reader
import Dialogue.Expr
import Dialogue.Regex.Search
import Dialogue.Text.Blank
import Dialogue.Text.Piece

/-!
# Formulas

The meaning of a condition: comparisons of variables and values, joined by "and", "or" and "not".
A variable by itself is tested for truth, and is false if it has no value; a comparison that reads
a variable without a value is an error.

## Main definitions

* `Operand`, `Operator`, `Formula` — the trees
* `Operator.holds` — when a comparison holds of two values
* `Formula.variableNames`, `Formula.eval` — what a formula reads, and whether it holds
-/

namespace Dialogue

/-- A side of a comparison. -/
inductive Operand where
  | var (name : String)
  | literal (v : Value)

/-- A comparison of two values. -/
inductive Operator where
  | contains
  | isMatch (pattern : Regex)
  | startsWith
  | endsWith
  | eq
  | notEq
  | greater
  | less
  | greaterEq
  | lessEq

/-- A formula. -/
inductive Formula where
  | literal (b : Bool)
  | truthy (name : String)
  | compare (left : Operand) (operator : Operator) (negated : Bool) (right : Operand)
  | and (a b : Formula)
  | or (a b : Formula)
  | not (a : Formula)

/-- Numbers closer than this count as equal. -/
def Operator.tolerance : Float := Float.ofBits 0x3CB0000000000000

namespace Operator

/-- Numbers are equal if they lie close together, other values if they are the same. -/
def same (a b : Value) : Bool :=
  match a, b with
  | .number x, .number y => (x - y).abs < tolerance
  | a, b => a == b

/-- The number of a value that is a number or whose text is one, blanks around it aside. -/
def numberOf? : Value → Option Float
  | .number x => some x
  | .string s => Decimal.read? (Text.trim s)
  | _ => none

/-- Compares two values as numbers; it fails of values that are none. -/
def ordered (test : Float → Float → Bool) (a b : Value) : Bool :=
  match numberOf? a, numberOf? b with
  | some x, some y => test x y
  | _, _ => false

/-- A text contains texts, a list contains items, and a map contains keys. -/
def holdsContains (a b : Value) : Bool :=
  match a with
  | .string s => Text.contains s b.render
  | .list items => items.any fun v => same v b
  | .map entries => b.asString?.any fun key => entries.any fun e => e.1 == key
  | _ => false

/-- Whether a comparison holds. -/
def holds (op : Operator) (a b : Value) : Bool :=
  match op with
  | eq => same a b
  | notEq => !same a b
  | greater => ordered (fun x y => x > y) a b
  | less => ordered (fun x y => x < y) a b
  | greaterEq => ordered (fun x y => x ≥ y) a b
  | lessEq => ordered (fun x y => x ≤ y) a b
  | contains => holdsContains a b
  | startsWith => a.asString?.any fun s => Text.startsWith s b.render
  | endsWith => a.asString?.any fun s => Text.endsWith s b.render
  | isMatch pattern => !a.isNull && pattern.occursIn a.render

end Operator

namespace Operand

/-- The variable that an operand reads. -/
def reads? : Operand → Option String
  | var name => some name
  | literal _ => none

/-- The value of an operand. -/
def resolve (scope : Scope) : Operand → Except FlowError Value
  | literal v => .ok v
  | var name =>
    match scope name with
    | some v => .ok v
    | none => .error (.unboundInCondition name)

end Operand

namespace Formula

/-- The variables that a formula mentions, from left to right. -/
def variableNames : Formula → List String
  | literal _ => []
  | truthy name => [name]
  | compare left _ _ right => [left, right].filterMap Operand.reads?
  | and a b => variableNames a ++ variableNames b
  | or a b => variableNames a ++ variableNames b
  | not a => variableNames a

/-- Whether a formula holds. The right side of "and" and "or" counts only if the left side leaves
the matter open. -/
def eval (scope : Scope) : Formula → Except FlowError Bool
  | literal b => .ok b
  | truthy name => .ok ((scope name).any Value.isTruthy)
  | compare left operator negated right => do
    let a ← left.resolve scope
    let b ← right.resolve scope
    return operator.holds a b != negated
  | and a b => do
    if ← eval scope a then eval scope b else return false
  | or a b => do
    if ← eval scope a then return true else eval scope b
  | not a => do
    return !(← eval scope a)

end Formula

end Dialogue
