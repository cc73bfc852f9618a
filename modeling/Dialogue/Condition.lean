import Dialogue.Condition.Parser
import Dialogue.Json.Record

/-!
# Conditions

A condition is a formula together with the text that it was written as. The text is what files
hold, so it is kept as it was, blanks included.

## Main definitions

* `Condition`, `Condition.ofText`
* `Condition.variableNames`, `Condition.eval`
-/

namespace Dialogue

/-- A formula and its text. -/
structure Condition where
  /-- The text, as it was written. -/
  source : String
  /-- What it says. -/
  formula : Formula

namespace Condition

/-- Reads a condition. Blanks of any kind may surround it; inside it only the plain ones count. -/
def ofText (source : String) : Except ConditionError Condition := do
  let text := Text.trim source
  if text.isEmpty then throw .empty
  let tokens ← Token.ofText text
  let formula ← Formula.ofTokens tokens
  return { source, formula }

/-- The variables that a condition mentions, from left to right. -/
def variableNames (c : Condition) : List String := c.formula.variableNames

/-- Whether a condition holds. -/
def eval (c : Condition) (scope : Scope) : Except FlowError Bool := c.formula.eval scope

/-- Reads a condition in a file. -/
def ofJson? (j : Json) : Option Condition :=
  j.asString?.bind fun s => (ofText s).toOption

end Condition

end Dialogue
