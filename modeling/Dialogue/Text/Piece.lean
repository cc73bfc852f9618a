/-!
# Pieces of a text

What a text begins with, ends with and contains, and its pieces between the separators in it.

## Main definitions

* `startsWith`, `endsWith`, `contains` — whether one text is a piece of another
* `split` — the pieces between separators
-/

namespace Dialogue.Text

/-- Whether the first text begins with the second. -/
def startsWith (s p : String) : Bool := p.toList.isPrefixOf s.toList

/-- Whether the first text ends with the second. -/
def endsWith (s p : String) : Bool := p.toList.isSuffixOf s.toList

/-- Whether the second list occurs in the first without a gap. -/
def containsList : List Char → List Char → Bool
  | [], p => p.isEmpty
  | c :: cs, p => p.isPrefixOf (c :: cs) || containsList cs p

/-- Whether the second text occurs in the first. -/
def contains (s p : String) : Bool := containsList s.toList p.toList

/-- The pieces of a list between its separators, of which there is one more than separators. -/
def splitList (separator : Char) : List Char → List (List Char)
  | [] => [[]]
  | c :: cs =>
    match splitList separator cs with
    | [] => [[c]]
    | piece :: pieces =>
      if c == separator then [] :: piece :: pieces else (c :: piece) :: pieces

/-- The pieces of a text between its separators. -/
def split (s : String) (separator : Char) : List String :=
  (splitList separator s.toList).map String.ofList

end Dialogue.Text
