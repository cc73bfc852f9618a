import Dialogue.Json
import Dialogue.Table

/-!
# Values

Events, variables, action arguments and action results carry values: null, truth values, numbers,
strings, lists and maps. The entries of a map are listed in key order.

## Main definitions

* `Value` — the values of the language
* `Params` — named values
* `Value.isTruthy` — what counts as true in a condition
* `Value.display`, `Value.render` — the text of a value in a message and in a rendered text
* `Value.toJson`, `Value.ofJson` — the document of a value, and the value of a document
-/

namespace Dialogue

/-- A value. The entries of a map are in key order. -/
inductive Value where
  | null
  | bool (b : Bool)
  | number (x : Float)
  | string (s : String)
  | list (items : List Value)
  | map (entries : List (String × Value))
  deriving Inhabited

/-- Named values: the parameters of an event or an action, the variables of a scope. -/
abbrev Params := Table String Value

namespace Value

mutual

/-- Structural equality. Numbers compare as numbers do: one that is not a number differs from
itself, and the two zeros are equal. -/
def beq : Value → Value → Bool
  | null, null => true
  | bool a, bool b => a == b
  | number x, number y => x == y
  | string s, string t => s == t
  | list xs, list ys => beqItems xs ys
  | map xs, map ys => beqEntries xs ys
  | _, _ => false

/-- Equality of the items of two lists. -/
def beqItems : List Value → List Value → Bool
  | [], [] => true
  | x :: xs, y :: ys => beq x y && beqItems xs ys
  | _, _ => false

/-- Equality of the entries of two maps. -/
def beqEntries : List (String × Value) → List (String × Value) → Bool
  | [], [] => true
  | (k, x) :: xs, (l, y) :: ys => k == l && beq x y && beqEntries xs ys
  | _, _ => false

end

instance : BEq Value := ⟨beq⟩

/-- The map of named values. -/
def ofParams (p : Params) : Value := .map p.entries

/-- The number of a natural number. -/
def ofNat (n : Nat) : Value := .number (Float.ofNat n)

/-- The name of the kind of a value. -/
def typeName : Value → String
  | null => "null"
  | bool _ => "bool"
  | number _ => "number"
  | string _ => "string"
  | list _ => "list"
  | map _ => "map"

/-- Whether a value is null. -/
def isNull : Value → Bool
  | null => true
  | _ => false

/-- The text of a string value. -/
def asString? : Value → Option String
  | string s => some s
  | _ => none

/-- The number of a number value. -/
def asNumber? : Value → Option Float
  | number x => some x
  | _ => none

/-- The truth value of a truth value. -/
def asBool? : Value → Option Bool
  | bool b => some b
  | _ => none

/-- Null, false, zero and what is empty do not count as true; all else does. -/
def isTruthy : Value → Bool
  | null => false
  | bool b => b
  | number x => x != 0
  | string s => !s.isEmpty
  | list xs => !xs.isEmpty
  | map es => !es.isEmpty

/-- A number is written as an integer if it is one of fewer than sixteen digits. -/
def asInteger? (x : Float) : Option Int :=
  match Decimal.magnitude x with
  | .finite d =>
    if d.isWhole && d.floor < 1000000000000000 then
      some (if Decimal.isNegative x then -(d.floor : Int) else d.floor)
    else none
  | _ => none

/-- The document of a number; there is none but `null` for what is not a finite number. -/
def numberToJson (x : Float) : Json :=
  match asInteger? x with
  | some n => .int n
  | none => if Decimal.isFinite x then .float x else .null

mutual

/-- The document of a value, given those of numbers. -/
def toJsonWith (number : Float → Json) : Value → Json
  | .null => .null
  | .bool b => .bool b
  | .number x => number x
  | .string s => .string s
  | .list xs => .array (itemsToJson number xs)
  | .map es => .object (entriesToJson number es)

/-- The documents of the items of a list. -/
def itemsToJson (number : Float → Json) : List Value → List Json
  | [] => []
  | x :: xs => toJsonWith number x :: itemsToJson number xs

/-- The documents of the entries of a map. -/
def entriesToJson (number : Float → Json) : List (String × Value) → List (String × Json)
  | [] => []
  | (k, x) :: es => (k, toJsonWith number x) :: entriesToJson number es

end

/-- The document of a value. -/
def toJson (v : Value) : Json := v.toJsonWith numberToJson

/-- The document of a value in which whole numbers are floats like all others. -/
def toFloatJson (v : Value) : Json := v.toJsonWith .float

mutual

/-- The value of a document; of two members with one key the later counts. -/
def ofJson : Json → Value
  | .null => null
  | .bool b => bool b
  | .int n => number (Float.ofInt n)
  | .float x => number x
  | .string s => string s
  | .array js => list (itemsOfJson js)
  | .object ms => map (Table.ofList (entriesOfJson ms)).entries

/-- The values of the items of an array. -/
def itemsOfJson : List Json → List Value
  | [] => []
  | j :: js => ofJson j :: itemsOfJson js

/-- The values of the members of an object. -/
def entriesOfJson : List (String × Json) → List (String × Value)
  | [] => []
  | (k, j) :: ms => (k, ofJson j) :: entriesOfJson ms

end

/-- The text of a number in a message. -/
def numberText (x : Float) : String :=
  match asInteger? x with
  | some n => toString n
  | none => Decimal.Layout.plain.float x

/-- The text of a value in a message: strings without quotes, lists and maps as documents. -/
def display : Value → String
  | null => "null"
  | bool b => if b then "true" else "false"
  | number x => numberText x
  | string s => s
  | list xs => (toJson (.list xs)).text
  | map es => (toJson (.map es)).text

/-- The text of a value inside a rendered text, where null leaves no trace. -/
def render : Value → String
  | null => ""
  | v => v.display

end Value

namespace Params

/-- The document of named values, given those of numbers. -/
def toJsonWith (number : Float → Json) (p : Params) : Json := (Value.ofParams p).toJsonWith number

/-- The document of named values. -/
def toJson (p : Params) : Json := p.toJsonWith Value.numberToJson

/-- The named values of the members of an object. -/
def ofMembers (members : List (String × Json)) : Params :=
  Table.ofList (Value.entriesOfJson members)

end Params

end Dialogue
