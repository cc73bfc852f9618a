import Dialogue.Json

/-!
# Interest in the parts of a document

Who reads a document may need a few of its parts only. What a reader has no interest in is passed
over: it has to be well formed, but it need not mean anything, and it may nest to any depth.

## Main definitions

* `Json.Interest` — which parts of a document are needed
* `Json.Interest.member`, `Json.Interest.item` — the interest in a member and in an item
-/

namespace Dialogue.Json

/-- Which parts of a document are needed. -/
inductive Interest where
  /-- All of it. -/
  | everything
  /-- None of it. -/
  | nothing
  /-- The named fields of a record, which may be written as an array of its fields in order. -/
  | fields (fs : List (String × Interest))
  /-- The same parts of every item of an array. -/
  | each (item : Interest)

namespace Interest

/-- The interest in every named field as a whole, and in no others. -/
def ofNames (names : List String) : Interest := .fields (names.map fun name => (name, .everything))

/-- Whether no part is needed. -/
def isNothing : Interest → Bool
  | nothing => true
  | _ => false

/-- The interest in the member with a key. -/
def member (key : String) : Interest → Interest
  | fields fs => (fs.lookup key).getD nothing
  | nothing => nothing
  | _ => everything

/-- The interest in the item at a position. -/
def item (i : Nat) : Interest → Interest
  | fields fs => ((fs[i]?).map Prod.snd).getD everything
  | each w => w
  | w => w

end Interest

end Dialogue.Json
