import Dialogue.Duration
import Dialogue.Error
import Dialogue.Action.Template

/-!
# Actions

An action is something that a flow may call and that happens outside the session. Its answer comes
some time after it is called, and whoever runs actions gives up on one that takes too long.

## Main definitions

* `Answer`, `Action`, `Registry`
* `Registry.run`, `Answer.within`
* `renderUtterance`, `generateText` — the actions that come with the library
-/

namespace Dialogue

/-- The result of an action, and when it is there. -/
structure Answer where
  /-- How long the action takes. -/
  delay : Duration
  /-- What comes of it. -/
  result : Except ActionError Value

namespace Answer

/-- An answer that is there at once. -/
def now (result : Except ActionError Value) : Answer := ⟨⟨0⟩, result⟩

/-- An answer if one waits for it no longer than a limit, which is named in whole seconds. Both the
answer and the limit are there after the longest wait. -/
def within (a : Answer) (action : String) (limit : Duration) : Answer :=
  if a.delay.wait.nanos ≤ limit.wait.nanos then { a with delay := a.delay.wait }
  else ⟨limit.wait, .error (.timeout action limit.seconds)⟩

end Answer

/-- Something that flows may call. -/
structure Action where
  /-- The name that flows call it by. -/
  name : String
  /-- A text for readers. -/
  description : String
  /-- What it answers to its parameters. -/
  run : Params → Answer

/-- The actions that may be called, by name. -/
abbrev Registry := Table String Action

namespace Registry

/-- Adds an action, in place of one with the same name. -/
def register (r : Registry) (a : Action) : Registry := r.insert a.name a

/-- The actions of a list; of two with one name the later is kept. -/
def ofActions (actions : List Action) : Registry := actions.foldl register ∅

/-- Runs an action. -/
def run (r : Registry) (action : String) (params : Params) : Answer :=
  match r.get? action with
  | some a => a.run params
  | none => .now (.error (.notFound action))

end Registry

/-! ## The actions that come with the library -/

namespace RenderUtterance

/-- The template that the parameters ask for: one that they hold, or one with a name. -/
def template (templates : Table String String) (params : Params) : Except ActionError String :=
  match (params.get? "template").bind Value.asString? with
  | some template => .ok template
  | none =>
    match (params.get? "utterance").bind Value.asString? with
    | none => .error (.invalidArguments "Missing 'template' or 'utterance' argument")
    | some name =>
      match templates.get? name with
      | some template => .ok template
      | none => .error (.invalidArguments s!"Unknown utterance '{name}'")

/-- The rendered template. -/
def answer (templates : Table String String) (params : Params) : Except ActionError Value := do
  let template ← template templates params
  let text ← Template.fill template params
  return .string text

end RenderUtterance

/-- Renders an utterance from a template, which may be one of those that are known by name. -/
def renderUtterance (templates : Table String String) : Action where
  name := "render_utterance"
  description :=
    "Render a bot utterance from a template, substituting \x7bname\x7d placeholders."
  run params := .now (RenderUtterance.answer templates params)

namespace GenerateText

/-- The name of the action. -/
def name : String := "generate_text"

/-- The generated text. Instructions come before the prompt. -/
def answer (generate : String → Except String String) (params : Params) :
    Except ActionError Value :=
  match (params.get? "prompt").bind Value.asString? with
  | none => .error (.invalidArguments "Missing 'prompt' argument")
  | some prompt =>
    let prompt := match (params.get? "instructions").bind Value.asString? with
      | some instructions => instructions ++ "\n\n" ++ prompt
      | none => prompt
    match generate prompt with
    | .ok text => .ok (.string text)
    | .error reason => .error (.executionFailed name reason)

end GenerateText

/-- Generates a text with a language model. -/
def generateText (generate : String → Except String String) : Action where
  name := GenerateText.name
  description := "Generate free text from a prompt with the configured language model."
  run params := .now (GenerateText.answer generate params)

/-- The actions that are always there. -/
def builtinActions : Registry := Registry.ofActions [renderUtterance ∅]

end Dialogue
