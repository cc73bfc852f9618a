import Dialogue.Json.Reader
import Dialogue.Regex.Machine
import Dialogue.Text.Letter
import Dialogue.Text.Blank

/-!
# Reading regular expressions

The usual notation, with ASCII classes and without look-around, back references and Unicode
classes. Groups nest to a bounded depth, which is what the recursion runs on, and the expression
that is read may neither nest too deep nor ask for too large a machine.

## Main definitions

* `Regex.Reader.Flags` — what a group of flags switches on and off
* `Regex.Reader.level` — reads the branches of a group
* `Regex.read?` — the expression that a whole text stands for
-/

namespace Dialogue.Regex

namespace Reader

/-- What a group of flags switches on and off, as far as a search can tell. -/
structure Flags where
  /-- Letters stand for themselves in either case. -/
  ignoreCase : Bool
  /-- Anchors hold at line ends too. -/
  multiLine : Bool
  /-- A dot stands for a line end too. -/
  dotAll : Bool
  /-- Carriage returns end lines too. -/
  carriageReturns : Bool
  /-- Blanks and comments between the parts count for nothing. -/
  ignoreBlanks : Bool

/-- What is left to read, the flags in force, and the groups so far. -/
structure State where
  /-- The rest of the text. -/
  rest : List Char
  /-- The flags in force. -/
  flags : Flags
  /-- How many groups have been opened so far. -/
  groups : Nat
  /-- The names given to groups so far. -/
  names : List String

/-- A reader takes a part of the text, or refuses the text. -/
abbrev Scan (α : Type) := StateT State Option α

/-- Refuses the text. -/
def refuse {α : Type} : Scan α := fun _ => none

/-- Refuses the text unless a condition holds. -/
def require (b : Bool) : Scan Unit := if b then pure () else refuse

/-- The rest of the text. -/
def rest : Scan (List Char) := State.rest <$> get

/-- Puts what is left to read. -/
def setRest (cs : List Char) : Scan Unit := modify fun s => { s with rest := cs }

/-- Drops a comment and the line end that closes it. -/
def dropComment (cs : List Char) : List Char := (cs.dropWhile (· != '\n')).drop 1

/-- Drops blanks and comments; each comment takes one unit of the bound. -/
def dropBlanks : Nat → List Char → List Char
  | 0, cs => cs
  | n + 1, cs =>
    match cs.dropWhile Text.isBlank with
    | '#' :: rest => dropBlanks n (dropComment rest)
    | rest => rest

/-- Drops blanks and comments if they count for nothing. -/
def skipBlanks : Scan Unit := modify fun s =>
  if s.flags.ignoreBlanks then { s with rest := dropBlanks s.rest.length s.rest } else s

/-- The next character, which stays. -/
def peek : Scan (Option Char) := List.head? <$> rest

/-- Drops the next character. -/
def bump : Scan Unit := modify fun s => { s with rest := s.rest.drop 1 }

/-- Drops the next character and the blanks after it; there has to be something left. -/
def bumpInside : Scan Unit := do
  bump
  skipBlanks
  require (!(← rest).isEmpty)

/-- Drops a text if it comes next, and says whether it did. -/
def bumpIf (p : String) : Scan Bool := do
  let cs ← rest
  if p.toList.isPrefixOf cs then
    setRest (cs.drop p.length)
    return true
  else return false

/-! ## Single characters and classes of them -/

/-- The expression of one character under the flags. -/
def charRegex (c : Char) : Scan Regex := do
  if (← get).flags.ignoreCase then
    match CharSet.foldRange? (c.toNat, c.toNat) with
    | some r => return .oneOf (CharSet.canonical [(c.toNat, c.toNat), r])
    | none => return .char c
  else return .char c

/-- The characters that have a meaning of their own. -/
def isMeta (c : Char) : Bool := "\\.+*?()|[]\x7b\x7d^$#&-~".toList.contains c

/-- Whether a backslash before a character makes it stand for itself. -/
def isEscapable (c : Char) : Bool :=
  isMeta c || (c.toNat < 0x80 && !c.isAlphanum && c != '<' && c != '>')

/-- The character of a number that was written in hexadecimal digits. -/
def charOfHex? (ds : List Char) : Option Char :=
  match Json.Reader.hexNumber? ds with
  | some n => if n.isValidChar then some (Char.ofNat n) else none
  | none => none

/-- Reads so many hexadecimal digits; what follows them may be the end of the text. -/
def hexDigits : Nat → Scan (List Char)
  | 0 => return []
  | n + 1 => do
    let some c ← peek | refuse
    require (Json.Reader.hexValue? c).isSome
    bump
    skipBlanks
    return c :: (← hexDigits n)

/-- Reads hexadecimal digits up to a closing brace. -/
def hexInBraces : Nat → Scan (List Char)
  | 0 => refuse
  | n + 1 => do
    let some c ← peek | refuse
    bump
    skipBlanks
    if c == '\x7d' then return []
    require (Json.Reader.hexValue? c).isSome
    return c :: (← hexInBraces n)

/-- Reads a character given by its number, after the letter that announces it. -/
def hexChar (width : Nat) : Scan Regex := do
  bumpInside
  let ds ←
    if (← peek) == some '\x7b' then do
      bump
      skipBlanks
      hexInBraces ((← rest).length + 1)
    else hexDigits width
  require (!ds.isEmpty)
  match charOfHex? ds with
  | some c => charRegex c
  | none => refuse

/-- Whether a character may stand in the name of a kind of word boundary. -/
def isBoundaryChar (c : Char) : Bool := c.isAlpha || c == '-'

/-- Reads the name of a kind of word boundary up to the closing brace. -/
def boundaryName : Nat → Scan (List Char)
  | 0 => return []
  | n + 1 => do
    match ← peek with
    | some c =>
      if isBoundaryChar c then
        bump
        skipBlanks
        return c :: (← boundaryName n)
      else return []
    | none => return []

/-- Reads what may follow the letter of a word boundary in braces. What begins otherwise than with
a name is left to be read as a number of turns. -/
def boundary : Scan Regex := do
  if (← peek) != some '\x7b' then return .look .boundary
  let before ← get
  bumpInside
  if !(← peek).any isBoundaryChar then
    set before
    return .look .boundary
  let name ← boundaryName (← rest).length
  require ((← peek) == some '\x7d')
  bump
  match String.ofList name with
  | "start" => return .look .wordStart
  | "end" => return .look .wordEnd
  | "start-half" => return .look .wordStartHalf
  | "end-half" => return .look .wordEndHalf
  | _ => refuse

/-- Reads an escape sequence, of which the backslash comes next. -/
def escape : Scan Regex := do
  bump
  let some c ← peek | refuse
  match c with
  | 'x' => hexChar 2
  | 'u' => hexChar 4
  | 'U' => hexChar 8
  | _ =>
    bump
    match c with
    | 'd' => return .oneOf CharSet.digit
    | 's' => return .oneOf CharSet.space
    | 'w' => return .oneOf CharSet.word
    | 'D' => return .oneOf CharSet.digit.complement
    | 'S' => return .oneOf CharSet.space.complement
    | 'W' => return .oneOf CharSet.word.complement
    | 'a' => charRegex '\x07'
    | 'f' => charRegex '\x0c'
    | 't' => charRegex '\t'
    | 'n' => charRegex '\n'
    | 'r' => charRegex '\r'
    | 'v' => charRegex '\x0b'
    | 'A' => return .look .start
    | 'z' => return .look .stop
    | 'b' => boundary
    | 'B' => return .look .noBoundary
    | '<' => return .look .wordStart
    | '>' => return .look .wordEnd
    | c => if isEscapable c then charRegex c else refuse

/-- The named classes of characters. -/
def namedClass? : String → Option CharSet
  | "alnum" => some [(0x30, 0x39), (0x41, 0x5A), (0x61, 0x7A)]
  | "alpha" => some [(0x41, 0x5A), (0x61, 0x7A)]
  | "ascii" => some [(0x00, 0x7F)]
  | "blank" => some [(0x09, 0x09), (0x20, 0x20)]
  | "cntrl" => some [(0x00, 0x1F), (0x7F, 0x7F)]
  | "digit" => some [(0x30, 0x39)]
  | "graph" => some [(0x21, 0x7E)]
  | "lower" => some [(0x61, 0x7A)]
  | "print" => some [(0x20, 0x7E)]
  | "punct" => some [(0x21, 0x2F), (0x3A, 0x40), (0x5B, 0x60), (0x7B, 0x7E)]
  | "space" => some [(0x09, 0x0D), (0x20, 0x20)]
  | "upper" => some [(0x41, 0x5A)]
  | "word" => some CharSet.word
  | "xdigit" => some [(0x30, 0x39), (0x41, 0x46), (0x61, 0x66)]
  | _ => none

/-- A named class inside brackets and colons, at the front of a text. -/
def namedClassAt? (cs : List Char) : Option (CharSet × List Char) :=
  match cs with
  | '[' :: ':' :: cs =>
    let (negated, cs) : Bool × List Char :=
      match cs with
      | '^' :: r => (true, r)
      | r => (false, r)
    match cs.dropWhile (· != ':') with
    | ':' :: ']' :: after =>
      (namedClass? (String.ofList (cs.takeWhile (· != ':')))).map fun s =>
        (if negated then s.complement else s, after)
    | _ => none
  | _ => none

/-- The ranges that an item of a class stands for. -/
def rangesOf : Regex → Scan CharSet
  | .char c => return [(c.toNat, c.toNat)]
  | .oneOf s => return s
  | _ => refuse

/-- The character that an end of a range stands for. -/
def endOf : Regex → Scan Nat
  | .char c => return c.toNat
  | _ => refuse

/-- Reads one item of a class. -/
def classItem : Scan Regex := do
  let some c ← peek | refuse
  if c == '\\' then escape
  else
    bump
    return .char c

/-- The character after the next one. If blanks count for nothing, it is the first one that is no
blank; the sign of a comment is left out once, but not the comment. -/
def peekAfter : Scan (Option Char) := do
  let cs := (← rest).drop 1
  if !(← get).flags.ignoreBlanks then return cs.head?
  let found := match cs.dropWhile Text.isBlank with
    | '#' :: comment => (comment.dropWhile Text.isBlank).head?
    | after => after.head?
  return found.or cs.head?

/-- Reads an item of a class, or a range between two of them. -/
def classRange : Scan CharSet := do
  let first ← classItem
  skipBlanks
  let some c ← peek | refuse
  let after ← peekAfter
  if c != '-' || after == some ']' || after == some '-' then rangesOf first
  else
    bumpInside
    let last ← classItem
    let low ← endOf first
    let high ← endOf last
    require (low ≤ high)
    return [(low, high)]

/-- Reads the dashes at the start of a class, which stand for themselves. -/
def classDashes : Nat → Scan CharSet
  | 0 => return []
  | n + 1 => do
    if (← peek) == some '-' then
      bumpInside
      return (0x2D, 0x2D) :: (← classDashes n)
    else return []

/-- Reads the items of a class up to its closing bracket. Classes inside classes, and operators
between them, are refused. -/
def classItems : Nat → Scan CharSet
  | 0 => refuse
  | n + 1 => do
    skipBlanks
    let cs ← rest
    match cs with
    | [] => refuse
    | '[' :: _ =>
      match namedClassAt? cs with
      | some (s, after) =>
        setRest after
        return s ++ (← classItems n)
      | none => refuse
    | ']' :: _ =>
      bump
      return []
    | '&' :: '&' :: _ | '-' :: '-' :: _ | '~' :: '~' :: _ => refuse
    | _ =>
      let s ← classRange
      return s ++ (← classItems n)

/-- Reads a class, of which the opening bracket comes next. -/
def classRegex : Scan Regex := do
  bumpInside
  let negated := (← peek) == some '^'
  if negated then bumpInside
  let dashes ← classDashes (← rest).length
  let closing ←
    if dashes.isEmpty && (← peek) == some ']' then do
      bumpInside
      pure [(0x5D, 0x5D)]
    else pure []
  let items ← classItems ((← rest).length + 1)
  let s := CharSet.canonical (dashes ++ closing ++ items)
  let s := if (← get).flags.ignoreCase then s.foldCase else s
  return .oneOf (if negated then s.complement else s)

/-- Reads an escape sequence, a dot, an anchor or a character that stands for itself. -/
def primitive : Scan Regex := do
  let some c ← peek | refuse
  let flags := (← get).flags
  match c with
  | '\\' => escape
  | '.' =>
    bump
    return .oneOf (CharSet.complement
      (if flags.dotAll then []
        else if flags.carriageReturns then [(0x0A, 0x0A), (0x0D, 0x0D)]
        else [(0x0A, 0x0A)]))
  | '^' =>
    bump
    return .look (if flags.multiLine then .lineStart flags.carriageReturns else .start)
  | '$' =>
    bump
    return .look (if flags.multiLine then .lineEnd flags.carriageReturns else .stop)
  | c =>
    bump
    charRegex c

/-! ## Repetitions -/

/-- Drops a question mark, which asks for as few turns as possible. -/
def skipLazy : Scan Unit := do
  if (← peek) == some '?' then bump

/-- Reads the sign of a repetition of the last part so far. -/
def repetition (sign : Char) (parts : List Regex) : Scan (List Regex) := do
  match parts with
  | [] => refuse
  | r :: parts =>
    bump
    skipLazy
    match sign with
    | '?' => return .repeatedOf r 0 (some 1) :: parts
    | '*' => return .repeatedOf r 0 none :: parts
    | _ => return .repeatedOf r 1 none :: parts

/-- Reads decimal digits, blanks between them left out if they count for nothing. -/
def decimalDigits : Nat → Scan (List Char)
  | 0 => return []
  | n + 1 => do
    match ← peek with
    | some c =>
      if c.isDigit then
        bump
        skipBlanks
        return c :: (← decimalDigits n)
      else return []
    | none => return []

/-- Drops blanks, whether they count or not. -/
def dropBlankChars : Scan Unit := modify fun s => { s with rest := s.rest.dropWhile Text.isBlank }

/-- Reads a number of at most thirty-two bits with blanks around it. -/
def decimal : Scan Nat := do
  dropBlankChars
  let ds ← decimalDigits (← rest).length
  dropBlankChars
  skipBlanks
  let n := Decimal.natOfDigits ds
  require (!ds.isEmpty && n < UInt32.size)
  return n

/-- Reads a number of turns in braces for the last part so far. -/
def countedRepetition (parts : List Regex) : Scan (List Regex) := do
  match parts with
  | [] => refuse
  | r :: parts =>
    bumpInside
    let least ← decimal
    let most ←
      if (← peek) == some ',' then do
        bumpInside
        if (← peek) == some '\x7d' then pure none else some <$> decimal
      else pure (some least)
    require ((← peek) == some '\x7d')
    bump
    skipBlanks
    skipLazy
    require (most.all (least ≤ ·))
    return .repeatedOf r least most :: parts

/-! ## Groups -/

/-- Switches a flag. -/
def setFlag (c : Char) (on : Bool) (flags : Flags) : Option Flags :=
  match c with
  | 'i' => some { flags with ignoreCase := on }
  | 'm' => some { flags with multiLine := on }
  | 's' => some { flags with dotAll := on }
  | 'R' => some { flags with carriageReturns := on }
  | 'x' => some { flags with ignoreBlanks := on }
  | 'U' | 'u' => some flags
  | _ => none

/-- Reads flags up to a colon or a closing parenthesis. A dash switches off the flags after it; it
may neither be repeated nor come last, and no flag may be repeated. -/
def flagList : Nat → Bool → List Char → Flags → Scan Flags
  | 0, _, _, _ => refuse
  | n + 1, negated, seen, flags => do
    let some c ← peek | refuse
    if c == ':' || c == ')' then
      require (seen.head? != some '-')
      return flags
    bump
    if c == '-' then
      require (!negated)
      flagList n true (c :: seen) flags
    else
      require (!seen.contains c)
      match setFlag c (!negated) flags with
      | some flags => flagList n negated (c :: seen) flags
      | none => refuse

/-- Whether a character may stand in the name of a group. -/
def isNameChar (isFirst : Bool) (c : Char) : Bool :=
  if isFirst then c == '_' || Text.isLetter c
  else c == '_' || c == '.' || c == '[' || c == ']' || Text.isLetter c || Text.isNumeral c

/-- The number of a group that has just been opened. -/
def groupNumber : Scan Nat := do
  modify fun s => { s with groups := s.groups + 1 }
  return (← get).groups

/-- Reads the name of a group and the bracket that closes it; no name may be given twice. -/
def groupName : Scan String := do
  let cs ← rest
  let name := cs.takeWhile (· != '>')
  require (!name.isEmpty && (name.take 1).all (isNameChar true)
    && (name.drop 1).all (isNameChar false))
  match cs.dropWhile (· != '>') with
  | _ :: after =>
    let s ← get
    let name := String.ofList name
    require (!s.names.contains name)
    set { s with rest := after, names := name :: s.names }
    return name
  | [] => refuse

/-- Reads the branches inside a group and its closing parenthesis, then puts the flags back. -/
def groupBody (inner : Scan Regex) (outside : Flags) : Scan Regex := do
  let r ← inner
  require ((← peek) == some ')')
  bump
  modify fun s => { s with flags := outside }
  return r

/-- Drops the text that announces a named group, if it comes next. -/
def namedGroupMark : Scan Bool := do
  if ← bumpIf "?P<" then return true
  bumpIf "?<"

/-- Reads a group, of which the opening parenthesis comes next, or a group of flags, which holds
until the group around it ends. -/
def group (inner : Scan Regex) : Scan (Option Regex) := do
  let outside := (← get).flags
  bump
  skipBlanks
  let cs ← rest
  if ["?=", "?!", "?<=", "?<!"].any fun p => p.toList.isPrefixOf cs then refuse
  else if ← namedGroupMark then
    let number ← groupNumber
    let name ← groupName
    return some (.group number (some name) (← groupBody inner outside))
  else if ← bumpIf "?" then
    let start ← rest
    let flags ← flagList (start.length + 1) false [] outside
    modify fun s => { s with flags }
    if (← peek) == some ')' then
      require (start.head? != some ')')
      bump
      return none
    else
      bump
      return some (← groupBody inner outside)
  else
    let number ← groupNumber
    return some (.group number none (← groupBody inner outside))

/-- Reads branches up to a closing parenthesis or the end of the text, given a reader for what is
inside a group. The parts of the branch so far and the branches so far come last first. -/
def branches (inner : Scan Regex) : Nat → List Regex → List Regex → Scan Regex
  | 0, _, _ => refuse
  | n + 1, done, parts => do
    skipBlanks
    let finish := Regex.concatOf parts.reverse
    match ← peek with
    | none | some ')' => return Regex.alternationOf (finish :: done).reverse
    | some '(' =>
      match ← group inner with
      | some r => branches inner n done (r :: parts)
      | none => branches inner n done parts
    | some '|' =>
      bump
      branches inner n (finish :: done) []
    | some '[' =>
      let r ← classRegex
      branches inner n done (r :: parts)
    | some '\x7b' =>
      let parts ← countedRepetition parts
      branches inner n done parts
    | some c =>
      if c == '?' || c == '*' || c == '+' then
        let parts ← repetition c parts
        branches inner n done parts
      else
        let r ← primitive
        branches inner n done (r :: parts)

/-- Reads branches in which groups nest to the given depth. -/
def level : Nat → Scan Regex
  | 0 => do branches refuse ((← rest).length + 1) [] []
  | n + 1 => do branches (level n) ((← rest).length + 1) [] []

end Reader

/-- How deep an expression may nest. -/
def maxHeight : Nat := 50

/-- The largest machine in bytes that an expression may ask for. -/
def maxMachineSize : Nat := 10 * 1024 * 1024

/-- The expression that a whole text stands for. -/
def read? (text : String) : Option Regex :=
  match (Reader.level maxHeight).run ⟨text.toList, ⟨false, false, false, false, false⟩, 0, []⟩ with
  | some (r, s) =>
    if s.rest.isEmpty && r.height ≤ maxHeight && r.machineSize ≤ maxMachineSize then some r
    else none
  | none => none

end Dialogue.Regex
