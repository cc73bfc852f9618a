/-!
# White space

The characters with the property White_Space, and trimming by them. Programs that read what people
type see no-break and typographic spaces, so the ASCII blanks alone will not do.

## Main definitions

* `isBlank` — the property White_Space
* `trim` — a text without the blanks at its ends
-/

namespace Dialogue.Text

/-- The characters with the property White_Space. -/
def isBlank (c : Char) : Bool :=
  let n := c.toNat
  (9 ≤ n && n ≤ 13) || n == 0x20 || n == 0x85 || n == 0xA0 || n == 0x1680
    || (0x2000 ≤ n && n ≤ 0x200A) || n == 0x2028 || n == 0x2029 || n == 0x202F || n == 0x205F
    || n == 0x3000

/-- The characters of a text without those at its start that pass a test. -/
def trimLeft (cs : List Char) : List Char := cs.dropWhile isBlank

/-- The characters of a text without the blanks at its end. -/
def trimRight (cs : List Char) : List Char := (cs.reverse.dropWhile isBlank).reverse

/-- A text without the blanks at its ends. -/
def trim (s : String) : String := String.ofList (trimRight (trimLeft s.toList))

/-- Whether a text holds nothing but blanks. -/
def isBlankText (s : String) : Bool := s.toList.all isBlank

end Dialogue.Text
