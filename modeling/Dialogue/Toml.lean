import Dialogue.Toml.Scalar
import Dialogue.Toml.Tree

/-!
# Reading configuration documents

A configuration document is written line by line: headings of tables, and assignments of values to
keys. Values may nest to a bounded depth, which is what the recursion runs on; the lines are as many
as the text has characters at most.

## Main definitions

* `Toml.Reader` — a reader takes a part of the text or refuses the text
* `Toml.value` — reads a value
* `Toml.read?` — the document that a whole text holds
-/

namespace Dialogue.Toml

/-- A reader takes a part of the text off its front, or refuses the text. -/
abbrev Reader (α : Type) := StateT (List Char) Option α

/-- Refuses the text. -/
def refuse {α : Type} : Reader α := fun _ => none

/-- Refuses the text unless a condition holds. -/
def require (b : Bool) : Reader Unit := if b then pure () else refuse

/-- The next character, which stays. -/
def peek : Reader (Option Char) := List.head? <$> get

/-- Takes the next character. -/
def take : Reader Char := do
  match ← get with
  | c :: rest =>
    set rest
    return c
  | [] => refuse

/-- Takes a character that has to come next. -/
def mark (c : Char) : Reader Unit := do require ((← take) == c)

/-- Takes the longest run of characters that pass a test. -/
def run (p : Char → Bool) : Reader (List Char) := do
  let cs ← get
  set (cs.dropWhile p)
  return cs.takeWhile p

/-- Drops blanks within a line. -/
def skipBlanks : Reader Unit := modify fun cs => cs.dropWhile fun c => c == ' ' || c == '\t'

/-- Whether a character may stand in a comment or a string as it is. -/
def isPrintable (c : Char) : Bool := c == '\t' || (0x20 ≤ c.toNat && c.toNat != 0x7F)

/-- Drops a comment, if one comes next. -/
def skipComment : Reader Unit := do
  if (← peek) == some '#' then discard (run isPrintable)

/-- A text without the line end at its front, if there is one. -/
def afterLineEnd? : List Char → Option (List Char)
  | '\n' :: rest => some rest
  | '\r' :: '\n' :: rest => some rest
  | _ => none

/-- Drops the line end that has to come next. -/
def lineEnd : Reader Unit := do
  match afterLineEnd? (← get) with
  | some rest => set rest
  | none => refuse

/-- Drops blanks, comments and line ends; each line takes one unit of the bound. -/
def skipLines : Nat → Reader Unit
  | 0 => return
  | n + 1 => do
    skipBlanks
    skipComment
    match afterLineEnd? (← get) with
    | some rest =>
      set rest
      skipLines n
    | none => return

/-- Drops blanks, comments and line ends. -/
def skipGap : Reader Unit := do skipLines ((← get).length + 1)

/-! ## Strings -/

/-- Takes hexadecimal digits for the number of a character. -/
def numberedChar (width : Nat) : Reader Char := do
  let cs ← get
  let ds := cs.take width
  require (ds.length == width)
  match Json.Reader.hexNumber? ds with
  | some n =>
    require n.isValidChar
    set (cs.drop width)
    return Char.ofNat n
  | none => refuse

/-- Takes what follows a backslash. -/
def escape : Reader Char := do
  match ← take with
  | 'b' => return '\x08'
  | 't' => return '\t'
  | 'n' => return '\n'
  | 'f' => return '\x0c'
  | 'r' => return '\r'
  | '"' => return '"'
  | '\\' => return '\\'
  | 'u' => numberedChar 4
  | 'U' => numberedChar 8
  | _ => refuse

/-- Takes the rest of a string in double quotes. -/
def basicBody : Nat → Reader (List Char)
  | 0 => refuse
  | n + 1 => do
    match ← take with
    | '"' => return []
    | '\\' => return (← escape) :: (← basicBody n)
    | c =>
      require (isPrintable c)
      return c :: (← basicBody n)

/-- Takes the rest of a string in single quotes, in which nothing is escaped. -/
def literalBody : Reader (List Char) := do
  let s ← run fun c => c != '\'' && isPrintable c
  mark '\''
  return s

/-- Whether only blanks stand between the front of a text and the end of the line. -/
def endsLine (cs : List Char) : Bool :=
  (afterLineEnd? (cs.dropWhile fun c => c == ' ' || c == '\t')).isSome

/-- Drops blanks and line ends. -/
def dropSpace : List Char → List Char
  | ' ' :: rest | '\t' :: rest | '\n' :: rest | '\r' :: '\n' :: rest => dropSpace rest
  | cs => cs

/-- Takes the rest of a string of several lines. Up to two quotes may stand right before the three
that close it. In a string in double quotes, a backslash at the end of a line joins the lines. -/
def linesBody (quote : Char) (escapes : Bool) : Nat → Reader (List Char)
  | 0 => refuse
  | n + 1 => do
    let cs ← get
    match afterLineEnd? cs with
    | some rest =>
      set rest
      return '\n' :: (← linesBody quote escapes n)
    | none =>
      let quotes := (cs.takeWhile (· == quote)).length
      if 3 ≤ quotes then
        require (quotes ≤ 5)
        set (cs.drop quotes)
        return List.replicate (quotes - 3) quote
      let c ← take
      if c == '\\' && escapes then
        if endsLine (← get) then
          modify dropSpace
          linesBody quote escapes n
        else return (← escape) :: (← linesBody quote escapes n)
      else
        require (isPrintable c)
        return c :: (← linesBody quote escapes n)

/-- Takes a string of one line, of which the quote comes next. -/
def lineString (quote : Char) : Reader (List Char) := do
  mark quote
  if quote == '"' then basicBody ((← get).length + 1) else literalBody

/-- Takes a string of several lines, whose first line end does not count, after its three quotes. -/
def linesString (quote : Char) : Reader (List Char) := do
  let cs ← get
  set ((afterLineEnd? cs).getD cs)
  linesBody quote (quote == '"') (cs.length + 1)

/-- Takes a string. -/
def string (quote : Char) : Reader (List Char) := do
  match ← get with
  | a :: b :: c :: rest =>
    if a == quote && b == quote && c == quote then
      set rest
      linesString quote
    else lineString quote
  | _ => lineString quote

/-! ## Keys and values -/

/-- Whether a character may stand in a key without quotes. -/
def isKeyChar (c : Char) : Bool := c.isAlphanum || c == '_' || c == '-'

/-- Takes one part of a key. -/
def simpleKey : Reader String := do
  match ← peek with
  | some '"' => return String.ofList (← lineString '"')
  | some '\'' => return String.ofList (← lineString '\'')
  | _ =>
    let cs ← run isKeyChar
    require (!cs.isEmpty)
    return String.ofList cs

/-- Takes the further parts of a dotted key. -/
def moreKeys : Nat → Reader (List String)
  | 0 => refuse
  | n + 1 => do
    skipBlanks
    if (← peek) == some '.' then
      mark '.'
      skipBlanks
      let key ← simpleKey
      return key :: (← moreKeys n)
    else return []

/-- How deep values and dotted keys may nest. -/
def maxDepth : Nat := 80

/-- Takes a key with the path before it, and the blanks around them. -/
def dottedKey : Reader (List String × String) := do
  skipBlanks
  let first ← simpleKey
  let keys := first :: (← moreKeys ((← get).length + 1))
  require (keys.length < maxDepth)
  return (keys.dropLast, keys.getLast?.getD first)

/-- Whether a character may stand in a number, a truth value or a date. -/
def isScalarChar (c : Char) : Bool :=
  c.isAlphanum || c == '_' || c == '+' || c == '-' || c == '.' || c == ':'

/-- Takes a number, a truth value or a date. A blank between a date and a time belongs to both. -/
def scalar : Reader Json := do
  let first ← run isScalarChar
  let cs ← get
  let isDate := first.length == 10 && (date? first).isSome
  let joined ← match cs with
    | ' ' :: d :: rest =>
      if isDate && d.isDigit then do
        set (d :: rest)
        let second ← run isScalarChar
        pure (first ++ ' ' :: second)
      else pure first
    | _ => pure first
  match scalar? joined with
  | some j => return j
  | none => refuse

/-- Takes the items of an array and its closing bracket. -/
def arrayItems (item : Reader Json) : Nat → Reader (List Json)
  | 0 => refuse
  | n + 1 => do
    skipGap
    if (← peek) == some ']' then
      mark ']'
      return []
    let j ← item
    skipGap
    match ← take with
    | ',' => return j :: (← arrayItems item n)
    | ']' => return [j]
    | _ => refuse

/-- Takes an assignment. -/
def assignment (item : Reader Json) : Reader ((List String × String) × Json) := do
  let key ← dottedKey
  mark '='
  skipBlanks
  return (key, ← item)

/-- Takes the assignments of a table on one line and its closing brace, adding them to a tree. -/
def inlineEntries (item : Reader Json) : Nat → Node → Reader Node
  | 0, _ => refuse
  | n + 1, tree => do
    let ((path, key), j) ← assignment item
    match tree.assign [] path key j with
    | none => refuse
    | some tree =>
      skipBlanks
      match ← take with
      | ',' =>
        skipBlanks
        inlineEntries item n tree
      | '\x7d' => return tree
      | _ => refuse

/-- Takes a value; arrays and tables may nest to the given depth. -/
def value : Nat → Reader Json
  | 0 => do
    match ← peek with
    | some '"' => return .string (String.ofList (← string '"'))
    | some '\'' => return .string (String.ofList (← string '\''))
    | _ => scalar
  | depth + 1 => do
    match ← peek with
    | some '"' => return .string (String.ofList (← string '"'))
    | some '\'' => return .string (String.ofList (← string '\''))
    | some '[' =>
      mark '['
      return .array (← arrayItems (value depth) ((← get).length + 1))
    | some '\x7b' =>
      mark '\x7b'
      skipBlanks
      if (← peek) == some '\x7d' then
        mark '\x7d'
        return .object []
      let tree ← inlineEntries (value depth) ((← get).length + 1) Node.root
      return tree.toJson
    | _ => scalar

/-! ## Lines -/

/-- The tree so far, and the heading that assignments fall under. -/
structure Progress where
  /-- The tree so far. -/
  tree : Node
  /-- The path of the last heading. -/
  heading : List String

/-- Takes a heading, of which the bracket comes next. -/
def heading (p : Progress) : Reader Progress := do
  mark '['
  let isElement := (← peek) == some '['
  if isElement then mark '['
  let (path, key) ← dottedKey
  mark ']'
  if isElement then mark ']'
  let tree := if isElement then p.tree.openElement path key else p.tree.openTable path key
  match tree with
  | some tree => return ⟨tree, path ++ [key]⟩
  | none => refuse

/-- Takes the lines of a document. -/
def documentLines : Nat → Progress → Reader Progress
  | 0, _ => refuse
  | n + 1, p => do
    skipBlanks
    let c ← peek
    let p ←
      if c.isNone || c == some '#' || c == some '\n' || c == some '\r' then pure p
      else if c == some '[' then heading p
      else do
        let ((path, key), j) ← assignment (value (maxDepth - 1))
        match p.tree.assign p.heading path key j with
        | some tree => pure { p with tree }
        | none => refuse
    skipBlanks
    skipComment
    if (← get).isEmpty then return p
    lineEnd
    documentLines n p

/-- The document that a whole text holds. -/
def read? (text : String) : Option Json :=
  let cs := match text.toList with
    | '\ufeff' :: rest => rest
    | cs => cs
  match (documentLines (cs.length + 1) ⟨Node.root, []⟩).run cs with
  | some (p, _) => some p.tree.toJson
  | none => none

end Dialogue.Toml
