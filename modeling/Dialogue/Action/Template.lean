import Dialogue.Error
import Dialogue.Text.Blank

/-!
# Templates of utterances

A template is a text with placeholders: a key between braces stands for the parameter of that name.
A doubled brace stands for one brace, so a placeholder begins at a brace that is not doubled; it
ends at the next closing brace, or with the text.

## Main definitions

* `Template.fill` — a template with its placeholders replaced
-/

namespace Dialogue.Template

/-- The error of a placeholder for which there is no parameter. -/
def missing (key : List Char) : ActionError :=
  .invalidArguments ("No value for placeholder '\x7b" ++ String.ofList key ++ "\x7d'")

/-- A list of characters with its placeholders replaced. What is put in is not looked at again. -/
def fillList (params : Params) (cs : List Char) : Except ActionError (List Char) :=
  match cs with
  | [] => .ok []
  | '\x7b' :: '\x7b' :: rest => (fillList params rest).map ('\x7b' :: ·)
  | '\x7d' :: '\x7d' :: rest => (fillList params rest).map ('\x7d' :: ·)
  | '\x7b' :: rest =>
    let key := rest.takeWhile (· != '\x7d')
    match params.get? (Text.trim (String.ofList key)) with
    | none => .error (missing key)
    | some v => (fillList params ((rest.dropWhile (· != '\x7d')).drop 1)).map (v.render.toList ++ ·)
  | c :: rest => (fillList params rest).map (c :: ·)
termination_by cs.length
decreasing_by
  · simp only [List.length_cons]; omega
  · simp only [List.length_cons]; omega
  · have := (List.dropWhile_suffix (l := rest) (· != '\x7d')).length_le
    simp only [List.length_drop, List.length_cons]
    omega
  · simp

/-- A template with its placeholders replaced by the rendered parameters. The first placeholder
without a parameter is an error. -/
def fill (template : String) (params : Params) : Except ActionError String :=
  (fillList params template.toList).map String.ofList

end Dialogue.Template
